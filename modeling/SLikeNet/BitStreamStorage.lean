import SLikeNet.ReliabilityLayer
import SLikeNet.Library.BitStream
import Mathlib.Data.List.Induction

/-! The storage of a `BitStream` that writes: its own array, the heap or none, and how
`AddBitsAndReallocate` makes room. -/

namespace SLikeNet

/-- A byte of memory, which may not have been written yet. -/
abbrev MemoryCell := Option UInt8

/-- `rakMalloc_Ex` -/
def rakMalloc (size : ℕ) : List MemoryCell := List.replicate size none

/-- `rakRealloc_Ex` -/
def rakRealloc (bytes : List MemoryCell) (size : ℕ) : List MemoryCell :=
  bytes.take size ++ rakMalloc (size - bytes.length)

/-- What `data` points to. -/
inductive StreamData
  | null
  | stackData (bytes : List MemoryCell)
  | heap (bytes : List MemoryCell)

namespace StreamData

def bytes : StreamData → List MemoryCell
  | null => []
  | stackData bytes => bytes
  | heap bytes => bytes

def store (index : ℕ) (byte : UInt8) : StreamData → StreamData
  | null => null
  | stackData bytes => stackData (bytes.set index (some byte))
  | heap bytes => heap (bytes.set index (some byte))

end StreamData

/-- The counters are of the type `BitSize_t`, which has 32 bits. -/
structure StreamStorage where
  numberOfBitsUsed : ℕ
  numberOfBitsAllocated : ℕ
  data : StreamData

namespace StreamStorage

/-- `BITSTREAM_STACK_ALLOCATION_SIZE` -/
def stackAllocationSize : ℕ := 256

def maxBits : ℕ := 4294967296

def wrap (n : ℕ) : ℕ := n % maxBits

/-- The difference of two numbers of 32 bits. -/
def wrapSub (a b : ℕ) : ℕ := wrap (a + maxBits - b)

/-- The constructors of streams that own their memory. -/
inductive Built
  | default
  | initialBytes (initialBytesToAllocate : ℕ)
  | copyOf (data : List UInt8)

def Built.lengthInBytes : Built → ℕ
  | default => 0
  | initialBytes _ => 0
  | copyOf data => data.length

def construct : Built → StreamStorage
  | .default => ⟨0, stackAllocationSize * 8, .stackData (rakMalloc stackAllocationSize)⟩
  | .initialBytes initialBytesToAllocate =>
    if initialBytesToAllocate ≤ stackAllocationSize then
      ⟨0, stackAllocationSize * 8, .stackData (rakMalloc stackAllocationSize)⟩
    else
      ⟨0, wrap (initialBytesToAllocate * 8), .heap (rakMalloc initialBytesToAllocate)⟩
  | .copyOf data =>
    if data.length > 0 then
      if data.length < stackAllocationSize then
        ⟨wrap (data.length * 8), stackAllocationSize * 8,
          .stackData (data.map some ++ rakMalloc (stackAllocationSize - data.length))⟩
      else ⟨wrap (data.length * 8), wrap (data.length * 8), .heap (data.map some)⟩
    else ⟨wrap (data.length * 8), wrap (data.length * 8), .null⟩

/-- The bits that are allocated when there is too little room. -/
def grownBits (total : ℕ) : ℕ :=
  if wrapSub (wrap (total * 2)) total > 1048576 then wrap (total + 1048576) else wrap (total * 2)

/-- What becomes of the memory. -/
def reallocate (s : StreamStorage) (amountToAllocate : ℕ) : StreamData :=
  match s.data with
  | .stackData bytes =>
    if amountToAllocate > stackAllocationSize then
      let copied := bytes.take (bitsToBytes s.numberOfBitsAllocated)
      .heap (copied ++ rakMalloc (amountToAllocate - copied.length))
    else .stackData bytes
  | .heap bytes => .heap (rakRealloc bytes amountToAllocate)
  | .null => .heap (rakMalloc amountToAllocate)

def addBitsAndReallocate (s : StreamStorage) (numberOfBitsToWrite : ℕ) : StreamStorage :=
  let total := wrap (numberOfBitsToWrite + s.numberOfBitsUsed)
  if total > 0 ∧ wrapSub s.numberOfBitsAllocated 1 / 8 < wrapSub total 1 / 8 then
    { s with
      data := s.reallocate (bitsToBytes (grownBits total))
      numberOfBitsAllocated := max s.numberOfBitsAllocated (grownBits total) }
  else { s with numberOfBitsAllocated := max s.numberOfBitsAllocated total }

/-- A write of some bits: room is made for them, bytes are stored, and the bits count as used.
Between two writes the end may be moved to the next byte. -/
inductive WriteCall
  | write (numberOfBitsToWrite : ℕ) (stores : List (ℕ × UInt8))
  | alignWriteToByteBoundary

def call (s : StreamStorage) : WriteCall → StreamStorage
  | .write numberOfBitsToWrite stores =>
    let s := s.addBitsAndReallocate numberOfBitsToWrite
    { s with
      data := stores.foldl (fun data store => data.store store.1 store.2) s.data
      numberOfBitsUsed := wrap (s.numberOfBitsUsed + numberOfBitsToWrite) }
  | .alignWriteToByteBoundary =>
    { s with numberOfBitsUsed := wrap (s.numberOfBitsUsed + BitStream.padding s.numberOfBitsUsed) }

def run (b : Built) (calls : List WriteCall) : StreamStorage := calls.foldl call (construct b)

/-- The size of a stream after some calls, without the limits of its counters. -/
def sizeAfter (size : ℕ) : List WriteCall → ℕ
  | [] => size
  | .write numberOfBitsToWrite _ :: calls => sizeAfter (size + numberOfBitsToWrite) calls
  | .alignWriteToByteBoundary :: calls => sizeAfter (size + BitStream.padding size) calls

/-- After `AddBitsAndReallocate` there is room for the bits, and the bytes that were used are
the same. -/
def MakesRoom (s : StreamStorage) (numberOfBitsToWrite : ℕ) : Prop :=
  (s.numberOfBitsUsed + numberOfBitsToWrite + 7) / 8 ≤
      (s.addBitsAndReallocate numberOfBitsToWrite).data.bytes.length ∧
    ∀ k < (s.numberOfBitsUsed + 7) / 8,
      (s.addBitsAndReallocate numberOfBitsToWrite).data.bytes[k]? = s.data.bytes[k]?

/-- The memory holds what is counted as allocated; a count that has wrapped to zero never grows,
but then there is more memory than the stream may use. -/
structure Sound (s : StreamStorage) : Prop where
  allocated_lt : s.numberOfBitsAllocated < maxBits
  allocated_le : (s.numberOfBitsAllocated + 7) / 8 ≤ s.data.bytes.length
  used_le : (s.numberOfBitsUsed + 7) / 8 ≤ s.data.bytes.length
  plenty : s.numberOfBitsAllocated = 0 → 268435456 ≤ s.data.bytes.length
  stack : ∀ bytes, s.data = .stackData bytes →
    bytes.length = stackAllocationSize ∧ s.numberOfBitsAllocated = stackAllocationSize * 8
  not_null : s.data ≠ .null

theorem length_rakRealloc (bytes : List MemoryCell) (size : ℕ) :
    (rakRealloc bytes size).length = size := by
  rw [rakRealloc, rakMalloc, List.length_append, List.length_take, List.length_replicate]
  omega

theorem getElem?_rakRealloc {bytes : List MemoryCell} {size k : ℕ} (hk : k < size)
    (hlen : k < bytes.length) : (rakRealloc bytes size)[k]? = bytes[k]? := by
  rw [rakRealloc, List.getElem?_append_left (by rw [List.length_take]; omega),
    List.getElem?_take_of_lt hk]

theorem grownBits_spec {total : ℕ} (h : total < 2147483648) :
    total ≤ grownBits total ∧ grownBits total < maxBits - 7 ∧
      (2048 < total → 4096 ≤ grownBits total) := by
  have hmax : maxBits = 4294967296 := rfl
  rw [grownBits]
  simp only [wrapSub, wrap, hmax]
  split <;> omega

variable {s : StreamStorage} {n : ℕ}

theorem reallocate_spec (h : Sound s) {amount : ℕ}
    (hamount : ∀ bytes, s.data = .stackData bytes → 256 < amount)
    (hused : (s.numberOfBitsUsed + 7) / 8 ≤ amount) :
    (s.reallocate amount).bytes.length = amount ∧
      (∀ bytes, s.reallocate amount ≠ .stackData bytes) ∧
      s.reallocate amount ≠ .null ∧
      ∀ k < (s.numberOfBitsUsed + 7) / 8, (s.reallocate amount).bytes[k]? = s.data.bytes[k]? := by
  have hle := h.used_le
  rw [reallocate]
  cases hdata : s.data with
  | null => exact absurd hdata h.not_null
  | stackData bytes =>
    obtain ⟨hlen, hallocated⟩ := h.stack bytes hdata
    have htake : bytes.take (bitsToBytes s.numberOfBitsAllocated) = bytes := by
      rw [hallocated]
      exact List.take_of_length_le (le_of_eq hlen)
    rw [hdata] at hle
    have hsize : stackAllocationSize = 256 := rfl
    have hlarge := hamount bytes hdata
    dsimp only
    rw [if_pos (by omega), htake]
    refine ⟨?_, fun _ heq => StreamData.noConfusion heq, fun heq => StreamData.noConfusion heq,
      fun k hk => ?_⟩
    · show (bytes ++ rakMalloc _).length = amount
      rw [rakMalloc, List.length_append, List.length_replicate]
      omega
    · exact List.getElem?_append_left (Nat.lt_of_lt_of_le hk hle)
  | heap bytes =>
    rw [hdata] at hle
    refine ⟨length_rakRealloc _ _, fun _ heq => StreamData.noConfusion heq,
      fun heq => StreamData.noConfusion heq, fun k hk => ?_⟩
    exact getElem?_rakRealloc (by omega) (Nat.lt_of_lt_of_le hk hle)

/-- `AddBitsAndReallocate` keeps the storage sound and makes room. -/
theorem addBitsAndReallocate_spec (h : Sound s) (hsize : s.numberOfBitsUsed + n < 2147483648) :
    Sound (s.addBitsAndReallocate n) ∧ s.MakesRoom n := by
  have hallocated := h.allocated_lt
  have hle := h.allocated_le
  have hused := h.used_le
  have hplenty := h.plenty
  have hmax : maxBits = 4294967296 := rfl
  have hstackSize : stackAllocationSize = 256 := rfl
  have htotal : wrap (n + s.numberOfBitsUsed) = n + s.numberOfBitsUsed := by
    rw [wrap, Nat.mod_eq_of_lt (by omega)]
  rw [MakesRoom, addBitsAndReallocate, htotal]
  split
  · rename_i hgrow
    have hlt : n + s.numberOfBitsUsed < 2147483648 := by omega
    obtain ⟨hbits, hbits', hbig⟩ := grownBits_spec hlt
    have hbytes : bitsToBytes (grownBits (n + s.numberOfBitsUsed)) =
        (grownBits (n + s.numberOfBitsUsed) + 7) / 8 := by
      rw [bitsToBytes, Nat.mod_eq_of_lt (by omega)]
    rw [hbytes]
    generalize grownBits (n + s.numberOfBitsUsed) = bits at hbits hbits' hbig ⊢
    simp only [wrapSub, wrap, hmax] at hgrow
    have hstack : ∀ bytes, s.data = .stackData bytes → 256 < (bits + 7) / 8 := by
      intro bytes hdata
      have heq := (h.stack bytes hdata).2
      have := hbig (by omega)
      omega
    obtain ⟨hlen, hheap, hnull, hkeep⟩ := reallocate_spec h hstack (by omega)
    refine ⟨⟨?_, ?_, ?_, ?_, ?_, hnull⟩, ?_, hkeep⟩
    · show max _ _ < maxBits
      omega
    · show (max _ _ + 7) / 8 ≤ _
      rw [hlen]
      omega
    · show (s.numberOfBitsUsed + 7) / 8 ≤ _
      rw [hlen]
      omega
    · show max _ _ = 0 → _
      omega
    · exact fun bytes hdata => absurd hdata (hheap bytes)
    · rw [hlen]
      omega
  · rename_i hroom
    simp only [wrapSub, wrap, hmax] at hroom
    have hfits : (s.numberOfBitsUsed + n + 7) / 8 ≤ s.data.bytes.length := by
      by_cases hzero : s.numberOfBitsAllocated = 0
      · have := hplenty hzero
        omega
      · omega
    refine ⟨⟨?_, ?_, hused, ?_, ?_, h.not_null⟩, hfits, fun k _ => rfl⟩
    · show max _ _ < maxBits
      omega
    · show (max _ _ + 7) / 8 ≤ s.data.bytes.length
      omega
    · show max _ _ = 0 → 268435456 ≤ s.data.bytes.length
      omega
    · intro bytes hdata
      obtain ⟨hlen, heq⟩ := h.stack bytes hdata
      refine ⟨hlen, ?_⟩
      show max _ _ = _
      rw [heq] at hroom ⊢
      omega

theorem Sound.store (h : Sound s) (index : ℕ) (byte : UInt8) :
    Sound { s with data := s.data.store index byte } := by
  cases hdata : s.data with
  | null => exact absurd hdata h.not_null
  | stackData bytes =>
    obtain ⟨hlen, hallocated⟩ := h.stack bytes hdata
    obtain ⟨hlt, hle, hused, hplenty, -, -⟩ := h
    rw [hdata] at hle hused hplenty
    have hsame : (StreamData.stackData (bytes.set index (some byte))).bytes.length =
        (StreamData.stackData bytes).bytes.length := List.length_set
    refine ⟨hlt, hsame ▸ hle, hsame ▸ hused, fun hzero => hsame ▸ hplenty hzero, ?_,
      fun heq => StreamData.noConfusion heq⟩
    intro bytes' heq
    obtain rfl := StreamData.stackData.inj heq
    exact ⟨hsame.trans hlen, hallocated⟩
  | heap bytes =>
    obtain ⟨hlt, hle, hused, hplenty, -, -⟩ := h
    rw [hdata] at hle hused hplenty
    have hsame : (StreamData.heap (bytes.set index (some byte))).bytes.length =
        (StreamData.heap bytes).bytes.length := List.length_set
    exact ⟨hlt, hsame ▸ hle, hsame ▸ hused, fun hzero => hsame ▸ hplenty hzero,
      fun _ heq => StreamData.noConfusion heq, fun heq => StreamData.noConfusion heq⟩

theorem Sound.stores (h : Sound s) (stores : List (ℕ × UInt8)) :
    Sound { s with
      data := stores.foldl (fun data store => data.store store.1 store.2) s.data } := by
  induction stores generalizing s with
  | nil => exact h
  | cons store stores ih => exact ih (h.store store.1 store.2)

theorem Sound.use (h : Sound s) {used : ℕ} (hle : (used + 7) / 8 ≤ s.data.bytes.length) :
    Sound { s with numberOfBitsUsed := used } :=
  ⟨h.allocated_lt, h.allocated_le, hle, h.plenty, h.stack, h.not_null⟩

theorem padding_eq (offset : ℕ) :
    (offset + BitStream.padding offset + 7) / 8 = (offset + 7) / 8 := by
  rw [BitStream.padding]
  omega

theorem le_sizeAfter (size : ℕ) (calls : List WriteCall) : size ≤ sizeAfter size calls := by
  induction calls generalizing size with
  | nil => exact Nat.le_refl size
  | cons c calls ih =>
    cases c with
    | write n stores => exact Nat.le_trans (Nat.le_add_right size n) (ih _)
    | alignWriteToByteBoundary => exact Nat.le_trans (Nat.le_add_right size _) (ih _)

/-- One call keeps the storage sound and counts its bits. -/
theorem call_spec (h : Sound s) (c : WriteCall)
    (hsize : sizeAfter s.numberOfBitsUsed [c] < 2147483648) :
    Sound (s.call c) ∧ (s.call c).numberOfBitsUsed = sizeAfter s.numberOfBitsUsed [c] := by
  have hmax : maxBits = 4294967296 := rfl
  cases c with
  | write n stores =>
    have hsize : s.numberOfBitsUsed + n < 2147483648 := hsize
    obtain ⟨hsound, hroom, -⟩ := addBitsAndReallocate_spec h hsize
    have hused : (s.addBitsAndReallocate n).numberOfBitsUsed = s.numberOfBitsUsed := by
      rw [addBitsAndReallocate]
      split <;> rfl
    have hwrap : wrap ((s.addBitsAndReallocate n).numberOfBitsUsed + n) =
        s.numberOfBitsUsed + n := by
      rw [hused, wrap, Nat.mod_eq_of_lt (by omega)]
    refine ⟨?_, hwrap⟩
    have huse : Sound { s.addBitsAndReallocate n with
        numberOfBitsUsed := wrap ((s.addBitsAndReallocate n).numberOfBitsUsed + n) } := by
      apply hsound.use
      rw [hwrap]
      exact hroom
    exact huse.stores stores
  | alignWriteToByteBoundary =>
    have hsize : s.numberOfBitsUsed + BitStream.padding s.numberOfBitsUsed < 2147483648 := hsize
    have hwrap : wrap (s.numberOfBitsUsed + BitStream.padding s.numberOfBitsUsed) =
        s.numberOfBitsUsed + BitStream.padding s.numberOfBitsUsed := by
      rw [wrap, Nat.mod_eq_of_lt (by omega)]
    refine ⟨h.use ?_, hwrap⟩
    rw [hwrap, padding_eq]
    exact h.used_le

theorem sizeAfter_append (size : ℕ) (calls calls' : List WriteCall) :
    sizeAfter size (calls ++ calls') = sizeAfter (sizeAfter size calls) calls' := by
  induction calls generalizing size with
  | nil => rfl
  | cons d calls ih =>
    cases d with
    | write n stores => exact ih _
    | alignWriteToByteBoundary => exact ih _

theorem Sound.of_stackData {used : ℕ} {bytes : List MemoryCell}
    (hlen : bytes.length = stackAllocationSize) (hused : (used + 7) / 8 ≤ stackAllocationSize) :
    Sound ⟨used, stackAllocationSize * 8, .stackData bytes⟩ where
  allocated_lt := show stackAllocationSize * 8 < maxBits by decide
  allocated_le := le_trans (show (stackAllocationSize * 8 + 7) / 8 ≤ stackAllocationSize by decide)
    (le_of_eq hlen.symm)
  used_le := le_trans hused (le_of_eq hlen.symm)
  plenty hzero := absurd hzero (show stackAllocationSize * 8 ≠ 0 by decide)
  stack bytes' heq := by
    obtain rfl := StreamData.stackData.inj heq
    exact ⟨hlen, rfl⟩
  not_null heq := StreamData.noConfusion heq

theorem Sound.of_heap {used allocated : ℕ} {bytes : List MemoryCell} (hlt : allocated < maxBits)
    (hle : (allocated + 7) / 8 ≤ bytes.length) (hused : (used + 7) / 8 ≤ bytes.length)
    (hplenty : allocated = 0 → 268435456 ≤ bytes.length) :
    Sound ⟨used, allocated, .heap bytes⟩ :=
  ⟨hlt, hle, hused, hplenty, fun _ heq => StreamData.noConfusion heq,
    fun heq => StreamData.noConfusion heq⟩

theorem construct_spec {b : Built} (hb : b ≠ .copyOf [])
    (hsize : 8 * b.lengthInBytes < 2147483648) :
    Sound (construct b) ∧ (construct b).numberOfBitsUsed = 8 * b.lengthInBytes := by
  have hmax : maxBits = 4294967296 := rfl
  have hstackSize : stackAllocationSize = 256 := rfl
  have hmalloc : ∀ size, (rakMalloc size).length = size := fun size => List.length_replicate
  have hempty : Sound ⟨0, stackAllocationSize * 8, .stackData (rakMalloc stackAllocationSize)⟩ :=
    .of_stackData (hmalloc _) (by decide)
  cases b with
  | default => exact ⟨hempty, rfl⟩
  | initialBytes initialBytesToAllocate =>
    rw [construct]
    split
    · exact ⟨hempty, rfl⟩
    · rename_i hlarge
      have hlen := hmalloc initialBytesToAllocate
      refine ⟨.of_heap (Nat.mod_lt _ (by decide)) ?_ ?_ ?_, rfl⟩
      · rw [hlen, wrap, hmax]
        omega
      · omega
      · rw [hlen, wrap, hmax]
        omega
  | copyOf data =>
    have hsize : 8 * data.length < 2147483648 := hsize
    have hpos : data.length > 0 := List.length_pos_iff.mpr fun hnil => hb (by rw [hnil])
    have hwrap : wrap (data.length * 8) = 8 * data.length := by
      rw [wrap, Nat.mod_eq_of_lt (by omega), Nat.mul_comm]
    rw [construct, if_pos hpos, hwrap]
    split
    · rename_i hsmall
      have hlen : (data.map some ++ rakMalloc (stackAllocationSize - data.length)).length =
          stackAllocationSize := by
        rw [List.length_append, List.length_map, hmalloc]
        omega
      exact ⟨.of_stackData hlen (by omega), rfl⟩
    · have hlen : (data.map (some : UInt8 → MemoryCell)).length = data.length :=
        List.length_map _
      exact ⟨.of_heap (by omega) (by omega) (by omega) (by omega), rfl⟩

theorem run_spec {b : Built} (hb : b ≠ .copyOf []) (calls : List WriteCall)
    (hsize : sizeAfter (8 * b.lengthInBytes) calls < 2147483648) :
    Sound (run b calls) ∧
      (run b calls).numberOfBitsUsed = sizeAfter (8 * b.lengthInBytes) calls := by
  induction calls using List.reverseRecOn with
  | nil => exact construct_spec hb hsize
  | append_singleton calls c ih =>
    rw [sizeAfter_append] at hsize ⊢
    have hle := le_sizeAfter (sizeAfter (8 * b.lengthInBytes) calls) [c]
    obtain ⟨hsound, hused⟩ := ih (by omega)
    rw [← hused] at hsize ⊢
    rw [run, List.foldl_append]
    exact call_spec hsound c hsize

theorem run_copyOf_nil {calls : List WriteCall}
    (h : ∀ n stores, .write n stores ∈ calls → n = 0) : run (.copyOf []) calls = ⟨0, 0, .null⟩ := by
  have hstores : ∀ stores : List (ℕ × UInt8),
      stores.foldl (fun data store => data.store store.1 store.2) StreamData.null = .null := by
    intro stores
    induction stores with
    | nil => rfl
    | cons store stores ih => exact ih
  induction calls using List.reverseRecOn with
  | nil => rfl
  | append_singleton calls c ih =>
    have hcalls := ih fun n stores hmem => h n stores (List.mem_append_left _ hmem)
    rw [run, List.foldl_append]
    show (run (.copyOf []) calls).call c = _
    rw [hcalls]
    cases c with
    | write n stores =>
      obtain rfl := h n stores (List.mem_append_right _ (List.mem_singleton_self _))
      show StreamStorage.mk 0 0 (stores.foldl _ StreamData.null) = _
      rw [hstores]
    | alignWriteToByteBoundary => rfl

theorem makesRoom_null (hn : n < 2147483648) :
    (StreamStorage.mk 0 0 .null).MakesRoom n ↔ n = 0 := by
  have hmax : maxBits = 4294967296 := rfl
  have hnone : ((StreamStorage.mk 0 0 .null).addBitsAndReallocate n).data = .null := by
    rw [addBitsAndReallocate, if_neg]
    simp only [wrapSub, wrap, hmax]
    omega
  rw [MakesRoom, hnone]
  constructor
  · rintro ⟨hroom, -⟩
    have hroom : (0 + n + 7) / 8 ≤ 0 := hroom
    omega
  · rintro rfl
    exact ⟨Nat.le_refl 0, fun k hk => absurd hk (Nat.not_lt_zero k)⟩

/-- In every run of writes that stays below 2^31 bits, every write makes room, except for a
stream that was built as a copy of no bytes: there the first write of a bit has no memory. -/
theorem makes_room_iff (b : Built) (calls : List WriteCall)
    (hsize : sizeAfter (8 * b.lengthInBytes) calls < 2147483648) :
    (∀ before n stores after, calls = before ++ .write n stores :: after →
        (run b before).MakesRoom n) ↔
      (b = .copyOf [] → ∀ n stores, .write n stores ∈ calls → n = 0) := by
  have hbefore : ∀ before n stores after, calls = before ++ .write n stores :: after →
      sizeAfter (8 * b.lengthInBytes) before + n < 2147483648 := by
    rintro before n stores after rfl
    rw [sizeAfter_append] at hsize
    exact Nat.lt_of_le_of_lt (le_sizeAfter _ after) hsize
  constructor
  · rintro hroom rfl
    clear hsize
    induction calls using List.reverseRecOn with
    | nil => exact fun n stores hmem => absurd hmem List.not_mem_nil
    | append_singleton calls c ih =>
      have hextend : ∀ before n stores after, calls = before ++ .write n stores :: after →
          calls ++ [c] = before ++ .write n stores :: (after ++ [c]) := by
        rintro before n stores after rfl
        rw [List.append_assoc, List.cons_append]
      have hzero := ih (fun before n stores after heq => hbefore _ _ _ _ (hextend _ _ _ _ heq))
        (fun before n stores after heq => hroom _ _ _ _ (hextend _ _ _ _ heq))
      intro n stores hmem
      rcases List.mem_append.mp hmem with hmem | hmem
      · exact hzero n stores hmem
      · obtain rfl := List.mem_singleton.mp hmem
        have hlast := hroom calls n stores [] rfl
        have hlt := hbefore calls n stores [] rfl
        rw [run_copyOf_nil hzero] at hlast
        exact (makesRoom_null (by omega)).mp hlast
  · intro hempty before n stores after heq
    have hlt := hbefore before n stores after heq
    by_cases hb : b = .copyOf []
    · have hzero := hempty hb
      rw [hb, run_copyOf_nil fun m stores' hmem => hzero m stores' (by simp [heq, hmem])]
      exact (makesRoom_null (by omega)).mpr (hzero n stores (by simp [heq]))
    · obtain ⟨hsound, hused⟩ := run_spec hb before (by omega)
      exact (addBitsAndReallocate_spec hsound (by omega)).2

theorem default_makes_room :
    sizeAfter 0 [.write 3000 [(374, 1)], .alignWriteToByteBoundary, .write 9000 []] < 2147483648 ∧
      ((∀ before n stores after,
          [.write 3000 [(374, 1)], .alignWriteToByteBoundary, .write 9000 []] =
            before ++ .write n stores :: after → (run .default before).MakesRoom n) ↔
        (Built.default = .copyOf [] → ∀ n stores, WriteCall.write n stores ∈
          [.write 3000 [(374, 1)], .alignWriteToByteBoundary, .write 9000 []] → n = 0)) :=
  ⟨by decide, makes_room_iff .default _ (by decide)⟩

/-- The first bit of a stream that was built as a copy of no bytes. -/
theorem copy_of_nothing :
    ¬ ∀ (b : Built) (calls : List WriteCall), sizeAfter (8 * b.lengthInBytes) calls < 2147483648 →
      ∀ before n stores after, calls = before ++ .write n stores :: after →
        (run b before).MakesRoom n := by
  intro h
  have hroom := (h (.copyOf []) [.write 1 []] (by decide) [] 1 [] [] rfl).1
  revert hroom
  decide

end StreamStorage

end SLikeNet
