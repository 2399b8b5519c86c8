import SLikeNet.HuffmanEncodingTree

/-! `StringCompressor`: what `EncodeString` writes at any offset of a stream, `DecodeString` reads
back up to the limit, as long as the length of the string survives the cast to `int`. -/

namespace SLikeNet

open BitCursor PacketReads HuffmanEncodingTree

namespace StringCompressor

def strlen (input : List UInt8) : ℕ := (input.takeWhile fun value => value ≠ 0).length

/-- A cast to `int`. -/
def toInt (n : ℕ) : Int := (n : Int).bmod (2 ^ 32)

def charsToWrite (input : List UInt8) (maxCharsToWrite : Int) : Int :=
  if maxCharsToWrite ≤ 0 ∨ toInt (strlen input) < maxCharsToWrite then toInt (strlen input)
  else maxCharsToWrite - 1

/-- `EncodeString` with a tree. The number of characters is cast to `size_t`. -/
def encodeString (root : HuffmanEncodingTreeNode) (input : Option (List UInt8))
    (maxCharsToWrite : Int) (output : List Bool) : Option (List Bool) :=
  match input with
  | none => some (output ++ StreamWrites.writeCompressed 4 0)
  | some input =>
    (encodeArray root input (charsToWrite input maxCharsToWrite % 2 ^ 64).toNat).map
      fun encodedBitStream =>
        let stringBitLength := encodedBitStream.length % 2 ^ 32
        output ++ (StreamWrites.writeCompressed 4 stringBitLength ++
          StreamWrites.rightAlignedBits encodedBitStream stringBitLength)

/-- A stream below so many bits gets its memory: counts have 32 bits, and a stream that grows asks
for up to `1048576` bits more than it needs, in whole bytes. -/
def streamLimit : ℕ := 2 ^ 32 - 1048576 - 8

/-- The bits of a string that is cut to a limit, without those that fill the last byte. -/
def codeBits (root : HuffmanEncodingTreeNode) (s : List UInt8) (n : ℕ) : List Bool :=
  (s.take (n - 1)).flatMap (encoding root)

/-- The streams stay below their limit: the length takes 33 bits at most and the padding 7. -/
def Fits (root : HuffmanEncodingTreeNode) (s : List UInt8) (n : ℕ) (before : List Bool) : Prop :=
  before.length + 33 + (codeBits root s n).length + 7 < streamLimit

/-- A string that was written behind some bits is read back from there, cut to the limit. The read
ends where the write did, and what was written behind is read next. -/
def Lossless (root : HuffmanEncodingTreeNode) (s : List UInt8) (n : ℕ) (before : List Bool) : Prop :=
  ∃ written, encodeString root (some (s ++ [0])) n before = some (before ++ written) ∧
    ∀ memory numberOfBits after, before ++ written ++ after <+: bitsOf memory →
      (before ++ written ++ after).length ≤ numberOfBits → numberOfBits ≤ memory.length * 8 →
      decodeString root n ⟨memory, numberOfBits, before.length⟩ =
        some (some (s.take (n - 1)), ⟨memory, numberOfBits, (before ++ written).length⟩) ∧
      (Cursor.mk memory numberOfBits (before ++ written).length).Ahead after

/-! ### The cast of the length -/

theorem strlen_append_zero {s : List UInt8} (hs : 0 ∉ s) : strlen (s ++ [0]) = s.length := by
  unfold strlen
  rw [List.takeWhile_append_of_pos fun value hvalue => ?_]
  · rw [List.length_append]
    rfl
  · exact decide_eq_true fun hzero => hs (hzero ▸ hvalue)

theorem toInt_le (n : ℕ) : toInt n ≤ n := by
  unfold toInt Int.bmod
  dsimp only
  split <;> omega

theorem toInt_bounds (n : ℕ) : -2 ^ 31 ≤ toInt n ∧ toInt n < 2 ^ 31 := by
  unfold toInt Int.bmod
  dsimp only
  split <;> omega

theorem toInt_of_lt {n : ℕ} (h : n < 2 ^ 31) : toInt n = n := by
  unfold toInt Int.bmod
  dsimp only
  split <;> omega

theorem charsToWrite_eq {s : List UInt8} (hs : 0 ∉ s) {n : ℕ} (hn : 1 ≤ n)
    (hcast : s.length < 2 ^ 31 ∨ (n : Int) - 1 ≤ toInt s.length) :
    charsToWrite (s ++ [0]) n = (min s.length (n - 1) : ℕ) := by
  have hle := toInt_le s.length
  unfold charsToWrite
  rw [strlen_append_zero hs]
  rcases hcast with hlt | hcast
  · rw [toInt_of_lt hlt]
    split <;> omega
  · split <;> omega

theorem charsToWrite_of_cast {s : List UInt8} (hs : 0 ∉ s) {n : ℕ}
    (hcast : toInt s.length < n - 1) : charsToWrite (s ++ [0]) n = toInt s.length := by
  unfold charsToWrite
  rw [strlen_append_zero hs, if_pos (Or.inr (by omega))]

/-! ### What is written is read back -/

variable {root : HuffmanEncodingTreeNode}

theorem length_take_flatMap_le (f : UInt8 → List Bool) (s : List UInt8) {k m : ℕ} (h : k ≤ m) :
    ((s.take k).flatMap f).length ≤ ((s.take m).flatMap f).length := by
  have htake : s.take k = (s.take m).take k := by rw [List.take_take, Nat.min_eq_left h]
  have happend := congrArg List.length
    (congrArg (fun values => List.flatMap f values) (List.take_append_drop k (s.take m)))
  rw [List.flatMap_append, List.length_append, ← htake] at happend
  omega

/-- What is written for the first characters of a string. -/
def writtenBits (codes pad : List Bool) : List Bool :=
  StreamWrites.writeCompressed 4 (codes ++ pad).length ++ (codes ++ pad)

theorem encodeString_eq (h : Complete root) {s : List UInt8} {n k : ℕ} (before : List Bool)
    (hchars : charsToWrite (s ++ [0]) n = k) (hk : k ≤ s.length) (hcounter : k < 2 ^ 32)
    (hcodes : ((s.take k).flatMap (encoding root)).length + 7 < 2 ^ 32) :
    ∃ pad more value,
      encodeString root (some (s ++ [0])) n before =
        some (before ++ writtenBits ((s.take k).flatMap (encoding root)) pad) ∧
      ((s.take k).flatMap (encoding root) ++ pad).length < 2 ^ 32 ∧ pad.length < 8 ∧
      LeafAt root (pad ++ more) value ∧ more ≠ [] := by
  have hsize : k ≤ (s ++ [0]).length := by
    rw [List.length_append]
    omega
  obtain ⟨pad, more, value, hencode, haligned, hshort, hleaf, hmore⟩ :=
    h.encodeArray_eq hsize hcounter
  rw [List.take_append_of_le_length hk] at hencode haligned
  have hlt : ((s.take k).flatMap (encoding root) ++ pad).length < 2 ^ 32 := by
    rw [List.length_append]
    omega
  refine ⟨pad, more, value, ?_, hlt, hshort, hleaf, hmore⟩
  have hcast : (charsToWrite (s ++ [0]) n % 2 ^ 64).toNat = k := by
    rw [hchars]
    omega
  rw [encodeString, hcast, hencode, Option.map_some]
  dsimp only
  rw [Nat.mod_eq_of_lt hlt, StreamWrites.rightAlignedBits_of_whole _ haligned, List.take_length,
    writtenBits]

theorem decodeString_eq (h : Complete root) (values : List UInt8) {pad more : List Bool}
    {value : UInt8} (hpad : LeafAt root (pad ++ more) value) (hmore : more ≠ [])
    (hlt : (values.flatMap (encoding root) ++ pad).length < 2 ^ 32) (n : ℕ) {c : Cursor}
    (hahead : c.Ahead (writtenBits (values.flatMap (encoding root)) pad)) :
    decodeString root n c =
      some (some (values.take (n - 1)),
        c.advance (writtenBits (values.flatMap (encoding root)) pad).length) := by
  have hlength := StreamWrites.readCompressed_ahead (by decide : 0 < 4) hlt hahead.left
  have hcodes := hahead.right
  have henough := hcodes.within
  have hdecode := h.decodeArrayFrom_eq values hpad hmore hcodes
  refine (bind_of_run hlength).trans ?_
  refine (bind_of_run (a := c.advance _) rfl).trans ?_
  rw [if_neg]
  · refine (map_of_run _ hdecode).trans ?_
    rw [Cursor.advance_advance, ← List.length_append]
    rfl
  · unfold numberOfUnreadBits
    omega

/-- What is decoded where the code cuts the string to `k` characters. -/
theorem exists_written (h : Complete root) {s : List UInt8} {n k : ℕ} {before : List Bool}
    (hchars : charsToWrite (s ++ [0]) n = k) (hk : k ≤ s.length) (hkn : k ≤ n - 1)
    (hint : n < 2 ^ 31) (hfits : Fits root s n before) :
    ∃ written, encodeString root (some (s ++ [0])) n before = some (before ++ written) ∧
      ∀ memory numberOfBits after, before ++ written ++ after <+: bitsOf memory →
        (before ++ written ++ after).length ≤ numberOfBits → numberOfBits ≤ memory.length * 8 →
        decodeString root n ⟨memory, numberOfBits, before.length⟩ =
          some (some (s.take k), ⟨memory, numberOfBits, (before ++ written).length⟩) ∧
        (Cursor.mk memory numberOfBits (before ++ written).length).Ahead after := by
  have hcodes : ((s.take k).flatMap (encoding root)).length + 7 < 2 ^ 32 := by
    have hle := length_take_flatMap_le (encoding root) s hkn
    unfold Fits codeBits streamLimit at hfits
    omega
  obtain ⟨pad, more, value, hencode, hlt, -, hpad, hmore⟩ :=
    encodeString_eq h before hchars hk (by omega) hcodes
  refine ⟨_, hencode, fun memory numberOfBits after hmemory hbits hinside => ?_⟩
  have hstart : (Cursor.mk memory numberOfBits 0).Ahead
      (before ++ (writtenBits ((s.take k).flatMap (encoding root)) pad ++ after)) := by
    rw [← List.append_assoc]
    exact ⟨hmemory, by rw [Nat.zero_add]; exact hbits, hinside⟩
  have hahead := hstart.right
  have hdecode := decodeString_eq h (s.take k) hpad hmore hlt n hahead.left
  have hend := hahead.right
  rw [Cursor.advance_advance, ← List.length_append, Cursor.advance_start] at hend
  have hcut : (s.take k).take (n - 1) = s.take k := by
    rw [List.take_take, Nat.min_eq_right hkn]
  rw [hcut, Cursor.advance_advance, ← List.length_append, Cursor.advance_start,
    Cursor.advance_start] at hdecode
  exact ⟨hdecode, hend⟩

theorem lossless_of_cast (h : Complete root) {s : List UInt8} (hs : 0 ∉ s) {n : ℕ} (hn : 1 ≤ n)
    (hint : n < 2 ^ 31) {before : List Bool} (hfits : Fits root s n before)
    (hcast : s.length < 2 ^ 31 ∨ (n : Int) - 1 ≤ toInt s.length) : Lossless root s n before := by
  have hwritten := exists_written h (charsToWrite_eq hs hn hcast) (Nat.min_le_left _ _)
    (Nat.min_le_right _ _) hint hfits
  rw [Nat.min_comm, ← List.take_take, List.take_length] at hwritten
  exact hwritten

/-- A string that is cut to fewer characters than the limit allows is not read back, and one that
is cut to a negative number is not even written. -/
theorem not_lossless_of_cast (h : Complete root) {s : List UInt8} (hs : 0 ∉ s) {n : ℕ}
    (hint : n < 2 ^ 31) {before : List Bool} (hfits : Fits root s n before)
    (hlong : 2 ^ 31 ≤ s.length) (hcast : toInt s.length < n - 1) : ¬ Lossless root s n before := by
  rintro ⟨written, hencode, hread⟩
  have hchars := charsToWrite_of_cast hs hcast
  have hbounds := toInt_bounds s.length
  by_cases hnegative : toInt s.length < 0
  · have hhuge : 2 ^ 32 ≤ (toInt s.length % 2 ^ 64).toNat := by omega
    rw [encodeString, hchars, encodeArray, if_neg (by omega)] at hencode
    cases hencode
  · obtain ⟨k, hk⟩ : ∃ k : ℕ, toInt s.length = k := ⟨(toInt s.length).toNat, by omega⟩
    obtain ⟨written', hencode', hread'⟩ := exists_written h (hchars.trans hk) (by omega) (by omega)
      hint hfits
    obtain rfl : written = written' :=
      List.append_cancel_left (Option.some.inj (hencode.symm.trans hencode'))
    obtain ⟨memory, hmemory, hwithin⟩ := exists_memory (before ++ written)
    rw [← List.append_nil (before ++ written)] at hmemory hwithin
    have heq := (hread memory _ [] hmemory hwithin (Nat.le_refl _)).1
    rw [(hread' memory _ [] hmemory hwithin (Nat.le_refl _)).1] at heq
    have htake := congrArg List.length (Option.some.inj (Prod.mk.inj (Option.some.inj heq)).1)
    rw [List.length_take, List.length_take] at htake
    omega

theorem length_flatMap_encoding_le (h : Complete root) (values : List UInt8) :
    (values.flatMap (encoding root)).length ≤ values.length * 255 := by
  induction values with
  | nil => exact Nat.zero_le _
  | cons value values ih =>
    have hlt := h.length_encoding_lt value
    rw [List.flatMap_cons, List.length_append, List.length_cons, Nat.succ_mul]
    omega

theorem fits_of_short (h : Complete root) (s : List UInt8) {n : ℕ} {before : List Bool}
    (hshort : before.length + (n - 1) * 255 < 2 ^ 31) : Fits root s n before := by
  have hcodes := length_flatMap_encoding_le h (s.take (n - 1))
  have htake := Nat.mul_le_mul_right 255 (List.length_take_le (n - 1) s)
  unfold Fits codeBits streamLimit
  omega

/-- Strings are compressed without loss, cut to the limit, if and only if the cast of their length
to `int` does not make it smaller than what the limit allows. -/
theorem lossless_iff (frequencyTable : UInt8 → UInt32) :
    ∃ root, generateFromFrequencyTable frequencyTable = some root ∧
      ∀ (s : List UInt8) (n : ℕ) (before : List Bool), 0 ∉ s → 1 ≤ n → n < 2 ^ 31 →
        Fits root s n before →
        (Lossless root s n before ↔ s.length < 2 ^ 31 ∨ (n : Int) - 1 ≤ toInt s.length) := by
  obtain ⟨left, right, hrun, hcomplete⟩ := generateFromFrequencyTable_eq frequencyTable
  refine ⟨_, hrun, fun s n before hs hn hint hfits => ⟨fun hlossless => ?_, ?_⟩⟩
  · by_contra hcast
    rw [not_or] at hcast
    exact not_lossless_of_cast hcomplete hs hint hfits (by omega) (by omega) hlossless
  · exact lossless_of_cast hcomplete hs hn hint hfits

theorem lossless_short : ∃ root, generateFromFrequencyTable (fun _ => 1) = some root ∧
    Lossless root [104, 101, 108, 108, 111] 4 [true] := by
  obtain ⟨root, hrun, hiff⟩ := lossless_iff fun _ => 1
  obtain ⟨left, right, hrun', hcomplete⟩ := generateFromFrequencyTable_eq fun _ => 1
  obtain rfl := Option.some.inj (hrun.symm.trans hrun')
  have hfits := @fits_of_short _ hcomplete [104, 101, 108, 108, 111] 4 [true] (by decide)
  exact ⟨_, hrun, (hiff _ 4 [true] (by decide) (by decide) (by decide) hfits).mpr
    (Or.inl (by decide))⟩

/-- Of a string of 4294967299 characters only 3 are written where 4 may be. -/
theorem lossless_long : ∃ root, generateFromFrequencyTable (fun _ => 1) = some root ∧
    ∃ s : List UInt8, s = List.replicate 4294967299 97 ∧ 0 ∉ s ∧ ¬ Lossless root s 5 [] := by
  obtain ⟨left, right, hrun, hcomplete⟩ := generateFromFrequencyTable_eq fun _ => 1
  refine ⟨_, hrun, _, rfl, fun hzero => ?_, ?_⟩
  · exact absurd (List.eq_of_mem_replicate hzero) (by decide)
  · refine not_lossless_of_cast hcomplete (fun hzero => ?_) (by decide)
      (fits_of_short hcomplete _ (by decide)) ?_ ?_
    · exact absurd (List.eq_of_mem_replicate hzero) (by decide)
    · rw [List.length_replicate]
      omega
    · rw [List.length_replicate]
      decide

end StringCompressor

end SLikeNet
