import Mathlib.Data.List.GetD
import Mathlib.Data.List.Range

/-! `ByteQueue`: a ring of bytes that grows, with offsets of 32 bits. Its memory is a function, of
which the first `lengthAllocated` bytes are allocated; a copy beyond them has the result `none`. -/

namespace SLikeNet

structure ByteQueue where
  data : ℕ → UInt8
  readOffset : ℕ
  writeOffset : ℕ
  lengthAllocated : ℕ

namespace ByteQueue

/-- An `unsigned` value. -/
def wrap (n : ℕ) : ℕ := n % 4294967296

/-- A difference of `unsigned` values. -/
def sub (m n : ℕ) : ℕ := wrap (m + 4294967296 - n)

def empty : ByteQueue := ⟨fun _ => 0, 0, 0, 0⟩

/-- What `memcpy` takes. -/
def slice (data : ℕ → UInt8) (offset length : ℕ) : List UInt8 :=
  (List.range length).map fun i => data (offset + i)

/-- `memcpy` into the first `lengthAllocated` bytes. -/
def copy (lengthAllocated offset : ℕ) (bytes : List UInt8) (data : ℕ → UInt8) :
    Option (ℕ → UInt8) :=
  if offset + bytes.length ≤ lengthAllocated then
    some fun i =>
      if offset ≤ i ∧ i < offset + bytes.length then bytes.getD (i - offset) 0 else data i
  else none

def getBytesWritten (q : ByteQueue) : ℕ :=
  if q.writeOffset ≥ q.readOffset then q.writeOffset - q.readOffset
  else wrap (q.writeOffset + sub q.lengthAllocated q.readOffset)

def newAmountToAllocate (length : ℕ) (q : ByteQueue) : ℕ :=
  max 256 (wrap (length + q.lengthAllocated + 1))

/-- The allocation of more bytes for `length` bytes that are written. What is behind the wrap moves
to its place after the bytes that were allocated before. -/
def grow (length : ℕ) (q : ByteQueue) : Option ByteQueue :=
  let newAmount := q.newAmountToAllocate length
  let lengthAllocated := wrap (q.lengthAllocated + newAmount)
  if q.writeOffset < q.readOffset then
    if q.writeOffset ≤ newAmount then do
      let data ← copy lengthAllocated q.lengthAllocated (slice q.data 0 q.writeOffset) q.data
      some ⟨data, q.readOffset, wrap (q.readOffset + q.getBytesWritten), lengthAllocated⟩
    else do
      let data ← copy lengthAllocated q.lengthAllocated (slice q.data 0 newAmount) q.data
      let data ← copy lengthAllocated 0 (slice data newAmount (q.writeOffset - newAmount)) data
      some ⟨data, q.readOffset, q.writeOffset - newAmount, lengthAllocated⟩
  else some { q with lengthAllocated := lengthAllocated }

/-- The write at `writeOffset`, which may wrap. -/
def put (input : List UInt8) (q : ByteQueue) : Option ByteQueue := do
  let untilWrap := sub q.lengthAllocated q.writeOffset
  let data ←
    if input.length ≤ untilWrap then copy q.lengthAllocated q.writeOffset input q.data
    else
      (copy q.lengthAllocated q.writeOffset (input.take untilWrap) q.data).bind
        (copy q.lengthAllocated 0 (input.drop untilWrap))
  some { q with
    data := data
    writeOffset := wrap (q.writeOffset + input.length) % q.lengthAllocated }

/-- One byte is wasted, since the offsets are the same where there is none. -/
def NeedsToGrow (length : ℕ) (q : ByteQueue) : Prop :=
  q.lengthAllocated = 0 ∨ length > sub (sub q.lengthAllocated q.getBytesWritten) 1

instance (length : ℕ) (q : ByteQueue) : Decidable (q.NeedsToGrow length) :=
  inferInstanceAs (Decidable (_ ∨ _))

def writeBytes (input : List UInt8) (q : ByteQueue) : Option ByteQueue :=
  if q.NeedsToGrow input.length then (q.grow input.length).bind (put input) else q.put input

/-- The bytes that `ReadBytes` copies; it returns false where there is none. -/
def peekBytes (maxLengthToRead : ℕ) (q : ByteQueue) : List UInt8 :=
  let bytesToRead := min q.getBytesWritten maxLengthToRead
  if q.writeOffset ≥ q.readOffset then slice q.data q.readOffset bytesToRead
  else
    let availableUntilWrap := sub q.lengthAllocated q.readOffset
    if bytesToRead ≤ availableUntilWrap then slice q.data q.readOffset bytesToRead
    else
      slice q.data q.readOffset availableUntilWrap ++
        slice q.data 0 (bytesToRead - availableUntilWrap)

def incrementReadOffset (length : ℕ) (q : ByteQueue) : ByteQueue :=
  { q with readOffset := wrap (q.readOffset + length) % q.lengthAllocated }

def decrementReadOffset (length : ℕ) (q : ByteQueue) : ByteQueue :=
  if length > q.readOffset then
    { q with readOffset := sub q.lengthAllocated (length - q.readOffset) }
  else { q with readOffset := q.readOffset - length }

/-- `ReadBytes` without `peek`. -/
def readBytes (maxLengthToRead : ℕ) (q : ByteQueue) : List UInt8 × ByteQueue :=
  let bytes := q.peekBytes maxLengthToRead
  (bytes, if bytes = [] then q else q.incrementReadOffset bytes.length)

/-! ### The bytes in the queue -/

/-- The bytes between the offsets. -/
def contents (q : ByteQueue) : List UInt8 :=
  if q.writeOffset ≥ q.readOffset then slice q.data q.readOffset (q.writeOffset - q.readOffset)
  else
    slice q.data q.readOffset (q.lengthAllocated - q.readOffset) ++ slice q.data 0 q.writeOffset

/-- The offsets are in the allocated bytes. -/
structure Ok (q : ByteQueue) : Prop where
  small : q.lengthAllocated < 4294967296
  read : q.readOffset < q.lengthAllocated ∨ (q.lengthAllocated = 0 ∧ q.readOffset = 0)
  write : q.writeOffset < q.lengthAllocated ∨ (q.lengthAllocated = 0 ∧ q.writeOffset = 0)

section Slices

variable {data data' : ℕ → UInt8} {offset length lengthAllocated : ℕ} {bytes : List UInt8}

@[simp] theorem length_slice : (slice data offset length).length = length := by
  simp [slice]

@[simp] theorem slice_zero : slice data offset 0 = [] := rfl

theorem slice_add (first second : ℕ) :
    slice data offset (first + second) =
      slice data offset first ++ slice data (offset + first) second := by
  simp [slice, List.range_add, Nat.add_assoc]

theorem take_slice {n : ℕ} (h : n ≤ length) :
    (slice data offset length).take n = slice data offset n := by
  obtain ⟨rest, rfl⟩ := Nat.exists_eq_add_of_le h
  rw [slice_add, List.take_left' (by simp)]

theorem drop_slice {n : ℕ} (h : n ≤ length) :
    (slice data offset length).drop n = slice data (offset + n) (length - n) := by
  obtain ⟨rest, rfl⟩ := Nat.exists_eq_add_of_le h
  rw [slice_add, List.drop_left' (by simp), Nat.add_sub_cancel_left]

theorem copy_isSome (data : ℕ → UInt8) (h : offset + bytes.length ≤ lengthAllocated) :
    ∃ data', copy lengthAllocated offset bytes data = some data' := by
  rw [copy, if_pos h]
  exact ⟨_, rfl⟩

theorem slice_copy_same (h : copy lengthAllocated offset bytes data = some data') :
    slice data' offset bytes.length = bytes := by
  rw [copy] at h
  split at h
  · obtain rfl := Option.some.inj h
    apply List.ext_getElem
    · simp
    · intro i hi hi'
      simp [slice, hi']
  · cases h

theorem slice_copy_other (h : copy lengthAllocated offset bytes data = some data') {start n : ℕ}
    (hother : start + n ≤ offset ∨ offset + bytes.length ≤ start) :
    slice data' start n = slice data start n := by
  rw [copy] at h
  split at h
  · obtain rfl := Option.some.inj h
    apply List.map_congr_left
    intro i hi
    have hlt := List.mem_range.mp hi
    exact if_neg (by omega)
  · cases h

end Slices

section Contents

variable {q : ByteQueue} {length : ℕ} {input : List UInt8}

theorem wrap_eq {n : ℕ} (h : n < 4294967296) : wrap n = n := Nat.mod_eq_of_lt h

theorem sub_eq {m n : ℕ} (hm : m < 4294967296) (h : n ≤ m) : sub m n = m - n := by
  rw [sub, wrap]
  omega

theorem getBytesWritten_eq (h : q.Ok) : q.getBytesWritten = q.contents.length := by
  obtain ⟨hsmall, hread, hwrite⟩ := h
  rw [getBytesWritten, contents]
  split
  · rw [length_slice]
  · rw [List.length_append, length_slice, length_slice, sub_eq hsmall (by omega), wrap_eq (by omega)]
    omega

theorem length_contents_lt (h : q.Ok) :
    q.contents.length < q.lengthAllocated ∨ q.contents = [] := by
  obtain ⟨hsmall, hread, hwrite⟩ := h
  rw [contents]
  split
  · by_cases hzero : q.lengthAllocated = 0
    · right
      rw [show q.writeOffset - q.readOffset = 0 by omega, slice_zero]
    · left
      rw [length_slice]
      omega
  · left
    rw [List.length_append, length_slice, length_slice]
    omega

theorem peekBytes_eq (h : q.Ok) (n : ℕ) : q.peekBytes n = q.contents.take n := by
  have hwritten := getBytesWritten_eq h
  obtain ⟨hsmall, hread, hwrite⟩ := h
  rw [peekBytes, hwritten, contents]
  split
  · rw [length_slice]
    rcases Nat.le_total n (q.writeOffset - q.readOffset) with hle | hle
    · rw [take_slice hle, Nat.min_eq_right hle]
    · rw [Nat.min_eq_left hle, List.take_of_length_le (by simpa using hle)]
  · rename_i hwrapped
    have havailable := sub_eq hsmall (n := q.readOffset) (by omega)
    dsimp only
    rw [havailable, List.length_append, length_slice, length_slice, List.take_append, length_slice]
    rcases Nat.le_total n (q.lengthAllocated - q.readOffset) with hle | hle
    · rw [Nat.min_eq_right (by omega), if_pos hle, take_slice hle, Nat.sub_eq_zero_of_le hle,
        List.take_zero, List.append_nil]
    · rw [List.take_of_length_le (by simpa using hle)]
      rcases Nat.le_total (n - (q.lengthAllocated - q.readOffset)) q.writeOffset with hle' | hle'
      · rw [take_slice hle', Nat.min_eq_right (by omega)]
        split
        · rename_i hn
          rw [show n = q.lengthAllocated - q.readOffset by omega, Nat.sub_self, slice_zero,
            List.append_nil]
        · rfl
      · rw [List.take_of_length_le (by simpa using hle'), Nat.min_eq_left (by omega)]
        split
        · rw [show q.writeOffset = 0 by omega, slice_zero, List.append_nil, Nat.add_zero]
        · rw [Nat.add_sub_cancel_left]

theorem Ok.incrementReadOffset (h : q.Ok) (length : ℕ) (hlength : length ≤ q.contents.length)
    (hsum : q.readOffset + length < 4294967296) :
    (q.incrementReadOffset length).Ok ∧
      (q.incrementReadOffset length).contents = q.contents.drop length := by
  obtain ⟨hsmall, hread, hwrite⟩ := h
  have hincrement : q.incrementReadOffset length =
      { q with readOffset := (q.readOffset + length) % q.lengthAllocated } := by
    rw [ByteQueue.incrementReadOffset, wrap_eq hsum]
  rw [contents] at hlength ⊢
  by_cases hzero : q.lengthAllocated = 0
  · rw [if_pos (by omega), length_slice] at hlength
    have hoffset : (q.incrementReadOffset length).readOffset = q.readOffset := by
      rw [hincrement]
      dsimp only
      rw [hzero, Nat.mod_zero]
      omega
    refine ⟨⟨hsmall, ?_, hwrite⟩, ?_⟩
    · rw [hoffset]
      exact hread
    · rw [contents, hoffset]
      have hwriteOffset : (q.incrementReadOffset length).writeOffset = q.writeOffset := rfl
      rw [hwriteOffset, if_pos (by omega), if_pos (by omega),
        show q.writeOffset - q.readOffset = 0 by omega, slice_zero, slice_zero, List.drop_nil]
  · have hlt : q.readOffset < q.lengthAllocated := by omega
    have hmod : (q.readOffset + length) % q.lengthAllocated =
        if q.readOffset + length < q.lengthAllocated then q.readOffset + length
        else q.readOffset + length - q.lengthAllocated := by
      split
      · rename_i hin
        exact Nat.mod_eq_of_lt hin
      · rename_i hout
        have hbound : q.readOffset + length - q.lengthAllocated < q.lengthAllocated := by
          split at hlength
          · rw [length_slice] at hlength
            omega
          · rw [List.length_append, length_slice, length_slice] at hlength
            omega
        rw [Nat.mod_eq_sub_mod (by omega), Nat.mod_eq_of_lt hbound]
    rw [hincrement, hmod]
    refine ⟨⟨hsmall, .inl ?_, hwrite⟩, ?_⟩
    · exact hmod ▸ Nat.mod_lt _ (by omega)
    · rw [contents]
      dsimp only
      by_cases hwrapped : q.writeOffset ≥ q.readOffset
      · rw [if_pos hwrapped, length_slice] at hlength
        have hin : q.readOffset + length < q.lengthAllocated := by omega
        rw [if_pos hin, if_pos hwrapped, if_pos (by omega), drop_slice hlength]
        congr 1
        omega
      · rw [if_neg hwrapped, List.length_append, length_slice, length_slice] at hlength
        rw [if_neg hwrapped, List.drop_append, length_slice]
        by_cases hin : q.readOffset + length < q.lengthAllocated
        · rw [if_pos hin, if_neg (by omega), drop_slice (by omega),
            Nat.sub_eq_zero_of_le (show length ≤ q.lengthAllocated - q.readOffset by omega),
            List.drop_zero]
          congr 2
          omega
        · rw [if_neg hin, if_pos (by omega), List.drop_of_length_le (by rw [length_slice]; omega),
            List.nil_append, drop_slice (by omega)]
          congr 1
          · omega
          · omega

theorem readOffset_increment_le (q : ByteQueue) (length : ℕ) (hsum : q.readOffset + length < 4294967296) :
    (q.incrementReadOffset length).readOffset ≤ q.readOffset + length := by
  rw [ByteQueue.incrementReadOffset, wrap_eq hsum]
  exact Nat.mod_le _ _

theorem decrement_increment (h : q.Ok) (hlength : length ≤ q.contents.length)
    (hsum : q.readOffset + length < 4294967296) :
    (q.incrementReadOffset length).decrementReadOffset length = q := by
  have hlt := length_contents_lt h
  obtain ⟨hsmall, hread, hwrite⟩ := h
  have hnil : q.contents = [] → length = 0 := fun heq => by
    rw [heq] at hlength
    exact Nat.le_zero.mp hlength
  rw [ByteQueue.incrementReadOffset, wrap_eq hsum]
  by_cases hzero : length = 0
  · subst hzero
    rw [Nat.add_zero, decrementReadOffset, if_neg (by exact Nat.not_lt_zero _)]
    have hsame : q.readOffset % q.lengthAllocated = q.readOffset := by
      rcases hread with hread | ⟨hnone, hread⟩
      · exact Nat.mod_eq_of_lt hread
      · rw [hread, Nat.zero_mod]
    rw [hsame]
    rfl
  · have hbound : length < q.lengthAllocated := by
      rcases hlt with hlt | hlt
      · omega
      · exact (hzero (hnil hlt)).elim
    have hreadOffset : q.readOffset < q.lengthAllocated := by omega
    by_cases hin : q.readOffset + length < q.lengthAllocated
    · rw [Nat.mod_eq_of_lt hin, decrementReadOffset]
      dsimp only
      rw [if_neg (by omega), Nat.add_sub_cancel]
    · rw [Nat.mod_eq_sub_mod (by omega), Nat.mod_eq_of_lt (by omega), decrementReadOffset]
      dsimp only
      rw [if_pos (by omega), sub_eq hsmall (by omega)]
      rw [show q.lengthAllocated - (length - (q.readOffset + length - q.lengthAllocated)) =
        q.readOffset by omega]

/-! ### Writing -/

theorem written_eq (h : q.Ok) (hroom : q.contents.length + input.length < q.lengthAllocated)
    (hsum : q.readOffset + q.contents.length + input.length < 4294967296) :
    q.writeOffset + input.length < 4294967296 ∧
      (q.writeOffset + input.length) % q.lengthAllocated =
        if q.writeOffset + input.length < q.lengthAllocated then q.writeOffset + input.length
        else q.writeOffset + input.length - q.lengthAllocated := by
  obtain ⟨hsmall, hread, hwrite⟩ := h
  have hle : q.writeOffset + input.length < q.lengthAllocated + q.lengthAllocated ∧
      q.writeOffset + input.length < 4294967296 := by
    rw [contents] at hroom hsum
    split at hroom
    · rename_i hle
      rw [if_pos hle] at hsum
      rw [length_slice] at hroom hsum
      omega
    · rename_i hle
      rw [List.length_append, length_slice, length_slice] at hroom
      omega
  refine ⟨hle.2, ?_⟩
  split
  · rename_i hin
    exact Nat.mod_eq_of_lt hin
  · rw [Nat.mod_eq_sub_mod (by omega), Nat.mod_eq_of_lt (by omega)]

theorem contents_copy (h : q.Ok) (hroom : q.contents.length + input.length < q.lengthAllocated)
    (hfits : input.length ≤ q.lengthAllocated - q.writeOffset) {data : ℕ → UInt8}
    (hdata : copy q.lengthAllocated q.writeOffset input q.data = some data) :
    ({ q with
      data := data
      writeOffset :=
        if q.writeOffset + input.length < q.lengthAllocated then q.writeOffset + input.length
        else q.writeOffset + input.length - q.lengthAllocated } : ByteQueue).contents =
      q.contents ++ input := by
  obtain ⟨hsmall, hread, hwrite⟩ := h
  rw [contents, contents]
  rw [contents] at hroom
  dsimp only
  have hsame := slice_copy_same hdata
  by_cases hwrapped : q.writeOffset ≥ q.readOffset
  · rw [if_pos hwrapped] at hroom ⊢
    rw [length_slice] at hroom
    have hbefore : slice data q.readOffset (q.writeOffset - q.readOffset) =
        slice q.data q.readOffset (q.writeOffset - q.readOffset) :=
      slice_copy_other hdata (.inl (by omega))
    have hall : slice data q.readOffset (q.writeOffset + input.length - q.readOffset) =
        slice q.data q.readOffset (q.writeOffset - q.readOffset) ++ input := by
      rw [show q.writeOffset + input.length - q.readOffset =
        (q.writeOffset - q.readOffset) + input.length by omega, slice_add, hbefore,
        show q.readOffset + (q.writeOffset - q.readOffset) = q.writeOffset by omega, hsame]
    by_cases hin : q.writeOffset + input.length < q.lengthAllocated
    · rw [if_pos hin, if_pos (by omega), hall]
    · rw [if_neg hin, if_neg (by omega), ← hall,
        show q.writeOffset + input.length - q.lengthAllocated = 0 by omega, slice_zero,
        List.append_nil]
      congr 1
      omega
  · rw [if_neg hwrapped] at hroom ⊢
    rw [List.length_append, length_slice, length_slice] at hroom
    have hin : q.writeOffset + input.length < q.lengthAllocated := by omega
    rw [if_pos hin, if_neg (by omega), slice_add, slice_copy_other hdata (.inr (by omega)),
      slice_copy_other hdata (.inl (by omega)), Nat.zero_add, hsame, List.append_assoc]

theorem put_spec (h : q.Ok) (hroom : q.contents.length + input.length < q.lengthAllocated)
    (hsum : q.readOffset + q.contents.length + input.length < 4294967296) :
    ∃ q', q.put input = some q' ∧ q'.Ok ∧ q'.contents = q.contents ++ input ∧
      q'.readOffset = q.readOffset := by
  obtain ⟨hsum', hmod⟩ := written_eq h hroom hsum
  have hok := h
  obtain ⟨hsmall, hread, hwrite⟩ := h
  have hwriteOffset : q.writeOffset < q.lengthAllocated := by omega
  have hreadOffset : q.readOffset < q.lengthAllocated := by omega
  have huntil := sub_eq hsmall (n := q.writeOffset) (by omega)
  rw [put, huntil, wrap_eq hsum', hmod]
  dsimp only
  by_cases hfits : input.length ≤ q.lengthAllocated - q.writeOffset
  · have hroom' : q.writeOffset + input.length ≤ q.lengthAllocated := by omega
    obtain ⟨data, hdata⟩ := copy_isSome q.data hroom'
    rw [if_pos hfits, hdata]
    refine ⟨_, rfl, ⟨hsmall, hread, .inl ?_⟩, contents_copy hok hroom hfits hdata, rfl⟩
    dsimp only
    split <;> omega
  · have hunwrapped : q.writeOffset ≥ q.readOffset := by
      by_contra hwrapped
      rw [contents, if_neg hwrapped, List.length_append, length_slice, length_slice] at hroom
      omega
    rw [contents, if_pos hunwrapped, length_slice] at hroom
    have htake : (input.take (q.lengthAllocated - q.writeOffset)).length =
        q.lengthAllocated - q.writeOffset := List.length_take_of_le (by omega)
    have hdrop : (input.drop (q.lengthAllocated - q.writeOffset)).length =
        input.length - (q.lengthAllocated - q.writeOffset) := List.length_drop
    have hfirst : q.writeOffset + (input.take (q.lengthAllocated - q.writeOffset)).length ≤
        q.lengthAllocated := by omega
    have hsecond : 0 + (input.drop (q.lengthAllocated - q.writeOffset)).length ≤
        q.lengthAllocated := by omega
    obtain ⟨data, hdata⟩ := copy_isSome q.data hfirst
    obtain ⟨data', hdata'⟩ := copy_isSome data hsecond
    rw [if_neg hfits, hdata, Option.bind_some, hdata']
    refine ⟨_, rfl, ⟨hsmall, hread, .inl ?_⟩, ?_, rfl⟩
    · dsimp only
      rw [if_neg (by omega)]
      omega
    · have hsame := slice_copy_same hdata
      have hsame' := slice_copy_same hdata'
      rw [htake] at hsame
      rw [hdrop] at hsame'
      rw [contents, contents]
      dsimp only
      have hout : ¬q.writeOffset + input.length < q.lengthAllocated := by omega
      rw [if_neg hout, if_pos hunwrapped, if_neg (by omega),
        show q.writeOffset + input.length - q.lengthAllocated =
          input.length - (q.lengthAllocated - q.writeOffset) by omega, hsame',
        slice_copy_other hdata' (.inr (by omega)),
        show q.lengthAllocated - q.readOffset = (q.writeOffset - q.readOffset) +
          (q.lengthAllocated - q.writeOffset) by omega, slice_add,
        show q.readOffset + (q.writeOffset - q.readOffset) = q.writeOffset by omega, hsame,
        slice_copy_other hdata (.inl (by omega)), List.append_assoc, List.take_append_drop]

/-- The queue does not need more than 32 bits. -/
def Fits (length : ℕ) (q : ByteQueue) : Prop :=
  (q.NeedsToGrow length →
    q.lengthAllocated + max 256 (length + q.lengthAllocated + 1) < 4294967296) ∧
  q.readOffset + q.contents.length + length < 4294967296

theorem grow_spec (h : q.Ok)
    (hfits : q.lengthAllocated + max 256 (length + q.lengthAllocated + 1) < 4294967296)
    (hsum : q.readOffset + q.contents.length < 4294967296) :
    ∃ q', q.grow length = some q' ∧ q'.Ok ∧ q'.contents = q.contents ∧
      q'.readOffset = q.readOffset ∧ q.contents.length + length < q'.lengthAllocated := by
  have hlt := length_contents_lt h
  have hgetBytesWritten := getBytesWritten_eq h
  obtain ⟨hsmall, hread, hwrite⟩ := h
  have hamount : q.newAmountToAllocate length = max 256 (length + q.lengthAllocated + 1) := by
    rw [newAmountToAllocate, wrap_eq (by omega)]
  have hlengthLt : q.contents.length + length <
      q.lengthAllocated + max 256 (length + q.lengthAllocated + 1) := by
    rcases hlt with hlt | hlt
    · omega
    · rw [hlt, List.length_nil]
      omega
  rw [grow, hamount, wrap_eq hfits]
  by_cases hwrapped : q.writeOffset < q.readOffset
  · have hroom : q.lengthAllocated + (slice q.data 0 q.writeOffset).length ≤
        q.lengthAllocated + max 256 (length + q.lengthAllocated + 1) := by
      rw [length_slice]
      omega
    obtain ⟨data, hdata⟩ := copy_isSome q.data hroom
    have hlength : q.contents.length =
        (q.lengthAllocated - q.readOffset) + q.writeOffset := by
      rw [contents, if_neg (by omega), List.length_append, length_slice, length_slice]
    rw [if_pos hwrapped, if_pos (by omega), hdata, hgetBytesWritten, wrap_eq hsum]
    refine ⟨_, rfl, ⟨hfits, .inl ?_, .inl ?_⟩, ?_, rfl, hlengthLt⟩
    · dsimp only
      omega
    · dsimp only
      omega
    · have hsame := slice_copy_same hdata
      rw [length_slice] at hsame
      rw [contents]
      dsimp only
      rw [if_pos (by omega), Nat.add_sub_cancel_left, hlength, slice_add,
        slice_copy_other hdata (.inl (by omega)),
        show q.readOffset + (q.lengthAllocated - q.readOffset) = q.lengthAllocated by omega, hsame,
        contents, if_neg (by omega)]
  · rw [if_neg hwrapped]
    refine ⟨_, rfl, ⟨hfits, .inl ?_, .inl ?_⟩, ?_, rfl, hlengthLt⟩
    · dsimp only
      omega
    · dsimp only
      omega
    · rw [contents, contents]
      dsimp only
      rw [if_pos (by omega), if_pos (by omega)]

/-- What is written is behind what was in the queue. -/
theorem writeBytes_spec (h : q.Ok) (hfits : q.Fits input.length) :
    ∃ q', q.writeBytes input = some q' ∧ q'.Ok ∧ q'.contents = q.contents ++ input ∧
      q'.readOffset = q.readOffset := by
  rw [writeBytes]
  split
  · rename_i hgrow
    obtain ⟨q', hq', hok, hcontents, hoffset, hroom⟩ :=
      grow_spec h (hfits.1 hgrow) (by have := hfits.2; omega)
    rw [hq', Option.bind_some, ← hcontents, ← hoffset]
    rw [← hcontents] at hroom
    exact put_spec hok hroom (by rw [hcontents, hoffset]; exact hfits.2)
  · rename_i hgrow
    have hzero : q.lengthAllocated ≠ 0 := fun heq => hgrow (.inl heq)
    have hlt := length_contents_lt h
    have hle : q.contents.length + 1 ≤ q.lengthAllocated := by
      rcases hlt with hlt | hlt
      · exact hlt
      · rw [hlt, List.length_nil]
        omega
    have hroom : input.length ≤ q.lengthAllocated - q.contents.length - 1 := by
      have hsmall := h.small
      by_contra hmore
      apply hgrow
      right
      rw [getBytesWritten_eq h, sub_eq hsmall (by omega), sub_eq (by omega) (by omega)]
      omega
    exact put_spec h (by omega) hfits.2

end Contents

end ByteQueue

end SLikeNet
