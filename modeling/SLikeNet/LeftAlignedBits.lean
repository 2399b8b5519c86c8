import SLikeNet.StreamAppend
import Mathlib.Data.List.Induction

/-! `WriteBits` of left-aligned bits between other writes: the low bits of the last byte that are
not meant stay in the stream, where later writes only add ones. -/

namespace SLikeNet

open BitMemory

/-- Bit `j` of an array, from the highest bit of its first byte. -/
def arrayBit (bytes : List UInt8) (j : ℕ) : Bool := bit (bytes.getD (j / 8) 0) (j % 8)

/-- Bit `j` of those that are meant; of a right-aligned byte that is not written whole these are
the lowest. -/
def InputBits.value (input : InputBits) (rightAlignedBits : Bool) (j : ℕ) : Bool :=
  if rightAlignedBits ∧ j / 8 = input.count / 8 then
    bit (input.bytes.getD (j / 8) 0) (j % 8 + (8 - input.count % 8))
  else arrayBit input.bytes j

namespace StreamMemory

inductive WriteOp
  | write0
  | write1
  | writeBits (input : InputBits) (rightAlignedBits : Bool)
  | write (inputByteArray : List UInt8)
  | writeStream (bitStream : StreamMemory) (numberOfBits : ℕ)
  | alignWriteToByteBoundary

def apply (s : StreamMemory) : WriteOp → StreamMemory
  | .write0 => s.write0
  | .write1 => s.write1
  | .writeBits input rightAlignedBits => s.writeBits input rightAlignedBits
  | .write inputByteArray => s.write inputByteArray
  | .writeStream bitStream numberOfBits =>
    StreamMemory.writeStream true false numberOfBits (fun i => if i then s else bitStream) true
  | .alignWriteToByteBoundary => s.alignWriteToByteBoundary

/-- The bits that a write means to append; those up to a byte boundary have no value. -/
def WriteOp.content (used : ℕ) : WriteOp → List (Option Bool)
  | .write0 => [some false]
  | .write1 => [some true]
  | .writeBits input rightAlignedBits =>
    (List.range input.count).map fun j => some (input.value rightAlignedBits j)
  | .write inputByteArray =>
    (List.range (8 * inputByteArray.length)).map fun j => some (arrayBit inputByteArray j)
  | .writeStream bitStream numberOfBits =>
    if numberOfBits > bitStream.getNumberOfUnreadBits then []
    else (List.range numberOfBits).map fun j => some (bitStream.unreadBit j)
  | .alignWriteToByteBoundary => List.replicate (BitStream.padding used) none

/-- A stream after some writes, on a memory with any bytes. -/
def run (memory : ℕ → UInt8) (ops : List WriteOp) : StreamMemory :=
  ops.foldl apply ⟨memory, 0, 0⟩

def contents (ops : List WriteOp) : List (Option Bool) :=
  ops.foldl (fun content op => content ++ op.content content.length) []

/-- The bits that `ReadBit` returns one after the other. -/
def readBack : ℕ → StreamMemory → List Bool
  | 0, _ => []
  | count + 1, s => s.readBit.1 :: readBack count s.readBit.2

/-- A low bit of the last byte that is not meant but set, at its position in the stream. -/
def StrayAt (used : ℕ) (input : InputBits) (p : ℕ) : Prop :=
  used + input.count ≤ p ∧ p / 8 * 8 < used + input.count ∧
    p < used + 8 * ((input.count + 7) / 8) ∧ arrayBit input.bytes (p - used) = true

/-- The places of all such bits of a run. -/
def Stray (ops : List WriteOp) (p : ℕ) : Prop :=
  ∃ before input after, ops = before ++ .writeBits input false :: after ∧
    StrayAt (contents before).length input p

theorem run_concat (memory : ℕ → UInt8) (ops : List WriteOp) (op : WriteOp) :
    run memory (ops ++ [op]) = (run memory ops).apply op := by
  simp [run]

theorem contents_concat (ops : List WriteOp) (op : WriteOp) :
    contents (ops ++ [op]) = contents ops ++ op.content (contents ops).length := by
  simp [contents]

theorem stray_concat {ops : List WriteOp} {op : WriteOp} {p : ℕ} :
    Stray (ops ++ [op]) p ↔
      Stray ops p ∨
        ∃ input, op = .writeBits input false ∧ StrayAt (contents ops).length input p := by
  constructor
  · rintro ⟨before, input, after, heq, hstray⟩
    cases after using List.reverseRecOn with
    | nil =>
      obtain ⟨rfl, hop⟩ := List.append_inj' heq rfl
      exact .inr ⟨input, List.head_eq_of_cons_eq hop, hstray⟩
    | append_singleton after z =>
      rw [← List.cons_append, ← List.append_assoc] at heq
      exact .inl ⟨before, input, after, (List.append_inj' heq rfl).1, hstray⟩
  · rintro (⟨before, input, after, rfl, hstray⟩ | ⟨input, rfl, hstray⟩)
    · exact ⟨before, input, after ++ [op], by simp, hstray⟩
    · exact ⟨ops, input, [], rfl, hstray⟩

theorem storedBit_true {input : InputBits} {j : ℕ} (hj : j < 8 * ((input.count + 7) / 8)) :
    storedBit true input.bytes input.count j =
      (decide (j < input.count) && input.value true j) := by
  rw [storedBit, InputBits.value, arrayBit]
  by_cases hlast : input.count < 8 * (j / 8) + 8
  · rw [if_pos ⟨hlast, rfl⟩, bit_shiftLeft _ (by omega) (by omega)]
    by_cases hlt : j < input.count
    · rw [decide_eq_true hlt, decide_eq_true (by omega), if_pos ⟨rfl, by omega⟩]
    · rw [decide_eq_false hlt, decide_eq_false (by omega), Bool.false_and, Bool.false_and]
  · rw [if_neg fun h => hlast h.1, decide_eq_true (by omega), Bool.true_and,
      if_neg fun h => absurd h.2 (by omega)]

theorem storedBit_false (input : InputBits) (j : ℕ) :
    storedBit false input.bytes input.count j = arrayBit input.bytes j := by
  rw [storedBit, if_neg fun h => Bool.noConfusion h.2, arrayBit]

theorem getElem?_map_some {n k : ℕ} {f : ℕ → Bool} :
    ((List.range n).map fun j => some (f j))[k]? = some (some true) ↔ k < n ∧ f k = true := by
  by_cases hk : k < n
  · rw [List.getElem?_map, List.getElem?_range hk, Option.map_some]
    simp [hk]
  · rw [List.getElem?_eq_none (by simpa using hk)]
    simp [hk]

theorem content_iff {op : WriteOp} {used p : ℕ} {b : Bool}
    (hop : ∀ input, op ≠ .writeBits input false)
    (h : b = true ↔ used ≤ p ∧ (op.content used)[p - used]? = some (some true)) :
    b = true ↔ used ≤ p ∧ (op.content used)[p - used]? = some (some true) ∨
      ∃ input, op = .writeBits input false ∧ StrayAt used input p := by
  rw [h]
  refine ⟨.inl, fun hor => hor.resolve_right ?_⟩
  rintro ⟨input, heq, -⟩
  exact hop input heq

theorem puts_writeStream (s : StreamMemory) {bitStream : StreamMemory} {numberOfBits : ℕ}
    (h : numberOfBits ≤ bitStream.getNumberOfUnreadBits) :
    Puts s (s.apply (.writeStream bitStream numberOfBits)) numberOfBits fun p =>
      decide (s.numberOfBitsUsed ≤ p ∧ p < s.numberOfBitsUsed + numberOfBits) &&
        bitStream.unreadBit (p - s.numberOfBitsUsed) := by
  rw [apply]
  obtain ⟨streams, hstreams⟩ :
      ∃ streams : Bool → StreamMemory, streams = fun i => if i then s else bitStream := ⟨_, rfl⟩
  have hdst : streams true = s := by rw [hstreams]; rfl
  have hsrc : streams false = bitStream := by rw [hstreams]; rfl
  rw [← hstreams]
  have happends : Appends true false numberOfBits (streams false).unreadBit streams
      (StreamMemory.writeStream true false numberOfBits streams) :=
    appends_writeStream (by rwa [hsrc])
  have hused := happends.used_eq true
  have hread := happends.readOffset_eq true
  have hoverlays := happends.overlays
  rw [hdst, hsrc] at hoverlays
  rw [hdst] at hused hread
  exact ⟨hused, hread, hoverlays⟩

theorem puts_write (s : StreamMemory) (inputByteArray : List UInt8) :
    Puts s (s.write inputByteArray) (8 * inputByteArray.length) fun p =>
      decide (s.numberOfBitsUsed ≤ p ∧ p < s.numberOfBitsUsed + 8 * inputByteArray.length) &&
        arrayBit inputByteArray (p - s.numberOfBitsUsed) := by
  rw [StreamMemory.write]
  split
  · rename_i hempty
    rw [hempty]
    apply (puts_zero s).congr
    intro p _
    rw [decide_eq_false (by omega), Bool.false_and]
  · split
    · rename_i haligned
      exact ⟨rfl, rfl, overlays_copyBytes s.data (inputByteArray.getD · 0) haligned _⟩
    · apply (puts_writeBits s _ true).congr
      intro p _
      rw [show 8 * ((8 * inputByteArray.length + 7) / 8) = 8 * inputByteArray.length by omega]
      by_cases hin : s.numberOfBitsUsed ≤ p ∧
          p < s.numberOfBitsUsed + 8 * inputByteArray.length
      · rw [storedBit, if_neg, arrayBit]
        rintro ⟨hlt, -⟩
        have hlt : 8 * inputByteArray.length < 8 * ((p - s.numberOfBitsUsed) / 8) + 8 := hlt
        omega
      · rw [decide_eq_false hin, Bool.false_and, Bool.false_and]

theorem overlay_iff {used n p : ℕ} {f : ℕ → Bool} :
    (decide (used ≤ p ∧ p < used + n) && f (p - used)) = true ↔
      used ≤ p ∧ ((List.range n).map fun j => some (f j))[p - used]? = some (some true) := by
  rw [getElem?_map_some, Bool.and_eq_true, decide_eq_true_eq]
  constructor
  · rintro ⟨⟨hle, hlt⟩, hbit⟩
    exact ⟨hle, by omega, hbit⟩
  · rintro ⟨hle, hlt, hbit⟩
    exact ⟨⟨hle, by omega⟩, hbit⟩

theorem overlay_writeBits_iff {input : InputBits} {rightAlignedBits : Bool} {used p : ℕ}
    (hp : p / 8 * 8 < used + input.count) :
    (decide (used ≤ p ∧ p < used + 8 * ((input.count + 7) / 8)) &&
        storedBit rightAlignedBits input.bytes input.count (p - used)) = true ↔
      used ≤ p ∧ ((WriteOp.writeBits input rightAlignedBits).content used)[p - used]? =
          some (some true) ∨
        ∃ input', WriteOp.writeBits input rightAlignedBits = .writeBits input' false ∧
          StrayAt used input' p := by
  rw [WriteOp.content, getElem?_map_some, Bool.and_eq_true, decide_eq_true_eq]
  cases rightAlignedBits with
  | true =>
    constructor
    · rintro ⟨⟨hle, hlt⟩, hbit⟩
      rw [storedBit_true (by omega), Bool.and_eq_true, decide_eq_true_eq] at hbit
      exact .inl ⟨hle, hbit⟩
    · rintro (⟨hle, hlt, hbit⟩ | ⟨input', heq, -⟩)
      · refine ⟨⟨hle, by omega⟩, ?_⟩
        rw [storedBit_true (by omega), Bool.and_eq_true, decide_eq_true_eq]
        exact ⟨hlt, hbit⟩
      · cases heq
  | false =>
    rw [storedBit_false]
    have hvalue : ∀ j, input.value false j = arrayBit input.bytes j := fun j =>
      if_neg fun h => Bool.noConfusion h.1
    rw [hvalue]
    constructor
    · rintro ⟨⟨hle, hlt⟩, hbit⟩
      by_cases hin : p - used < input.count
      · exact .inl ⟨hle, hin, hbit⟩
      · exact .inr ⟨input, rfl, by omega, hp, hlt, hbit⟩
    · rintro (⟨hle, hlt, hbit⟩ | ⟨input', heq, hle, -, hlt, hbit⟩)
      · exact ⟨⟨hle, by omega⟩, hbit⟩
      · cases heq
        exact ⟨⟨by omega, hlt⟩, hbit⟩

/-- What a write puts into the memory: the bits of its content, and with left-aligned bits those
that are not meant. -/
theorem puts_apply (s : StreamMemory) (op : WriteOp) :
    ∃ overlay, Puts s (s.apply op) (op.content s.numberOfBitsUsed).length overlay ∧
      ∀ p, p / 8 * 8 < s.numberOfBitsUsed + (op.content s.numberOfBitsUsed).length →
        (overlay p = true ↔
          s.numberOfBitsUsed ≤ p ∧
              (op.content s.numberOfBitsUsed)[p - s.numberOfBitsUsed]? = some (some true) ∨
            ∃ input, op = .writeBits input false ∧ StrayAt s.numberOfBitsUsed input p) := by
  cases op with
  | write0 =>
    refine ⟨_, puts_write0 s, fun p _ => content_iff (fun _ heq => WriteOp.noConfusion heq) ?_⟩
    simp [WriteOp.content, List.getElem?_singleton]
  | write1 =>
    refine ⟨_, puts_write1 s, fun p _ => content_iff (fun _ heq => WriteOp.noConfusion heq) ?_⟩
    simp only [WriteOp.content, List.getElem?_singleton, decide_eq_true_eq]
    constructor
    · rintro rfl
      simp
    · rintro ⟨hle, hat⟩
      split at hat
      · omega
      · cases hat
  | writeBits input rightAlignedBits =>
    have hlen : ((WriteOp.writeBits input rightAlignedBits).content
        s.numberOfBitsUsed).length = input.count := by
      simp [WriteOp.content]
    rw [hlen]
    exact ⟨_, puts_writeBits s input rightAlignedBits, fun p hp => overlay_writeBits_iff hp⟩
  | write inputByteArray =>
    have hlen : ((WriteOp.write inputByteArray).content s.numberOfBitsUsed).length =
        8 * inputByteArray.length := by
      simp [WriteOp.content]
    rw [hlen]
    exact ⟨_, puts_write s inputByteArray,
      fun p _ => content_iff (fun _ heq => WriteOp.noConfusion heq) overlay_iff⟩
  | writeStream bitStream numberOfBits =>
    by_cases hfew : numberOfBits > bitStream.getNumberOfUnreadBits
    · have hsame : s.apply (.writeStream bitStream numberOfBits) = s :=
        congrFun (if_pos hfew :
          StreamMemory.writeStream true false numberOfBits (fun i => if i then s else bitStream) =
            _) true
      have hnil : (WriteOp.writeStream bitStream numberOfBits).content s.numberOfBitsUsed = [] :=
        if_pos hfew
      rw [hsame, hnil]
      refine ⟨_, puts_zero s, fun p _ => ?_⟩
      simp
    · have hmap : (WriteOp.writeStream bitStream numberOfBits).content s.numberOfBitsUsed =
          (List.range numberOfBits).map fun j => some (bitStream.unreadBit j) := if_neg hfew
      have hlen : ((WriteOp.writeStream bitStream numberOfBits).content
          s.numberOfBitsUsed).length = numberOfBits := by
        simp [hmap]
      rw [hlen]
      refine ⟨_, puts_writeStream s (Nat.le_of_not_lt hfew),
        fun p _ => content_iff (fun _ heq => WriteOp.noConfusion heq) ?_⟩
      rw [hmap]
      exact overlay_iff
  | alignWriteToByteBoundary =>
    have hlen : (WriteOp.alignWriteToByteBoundary.content s.numberOfBitsUsed).length =
        BitStream.padding s.numberOfBitsUsed := by
      simp [WriteOp.content]
    rw [hlen]
    refine ⟨_, puts_alignWriteToByteBoundary s,
      fun p _ => content_iff (fun _ heq => WriteOp.noConfusion heq) ?_⟩
    simp only [WriteOp.content, List.getElem?_replicate, Bool.false_eq_true, false_iff, not_and]
    intro _
    split <;> simp

/-- Every bit in a byte that was started is one that is meant or one that is not. -/
structure Shows (s : StreamMemory) (ops : List WriteOp) : Prop where
  used_eq : s.numberOfBitsUsed = (contents ops).length
  readOffset_eq : s.readOffset = 0
  bit_iff : ∀ p, p / 8 * 8 < s.numberOfBitsUsed →
    (bitAt s.data p = true ↔ (contents ops)[p]? = some (some true) ∨ Stray ops p)
  stray_lt : ∀ p, Stray ops p → p / 8 * 8 < s.numberOfBitsUsed

theorem Shows.apply {s : StreamMemory} {ops : List WriteOp} (h : Shows s ops) (op : WriteOp) :
    Shows (s.apply op) (ops ++ [op]) := by
  obtain ⟨overlay, hputs, hoverlay⟩ := puts_apply s op
  have hle := hputs.overlays.le
  have hused := hputs.used_eq
  rw [h.used_eq] at hoverlay
  constructor
  · rw [contents_concat, List.length_append, hused, h.used_eq]
  · exact hputs.readOffset_eq.trans h.readOffset_eq
  · intro p hp
    rw [hused] at hp
    rw [hputs.overlays.bit_eq p hp, Bool.or_eq_true, Bool.and_eq_true, decide_eq_true_eq,
      hoverlay p (by rw [← h.used_eq]; exact hp), contents_concat, stray_concat]
    have hlen := h.used_eq
    by_cases hlt : p < (contents ops).length
    · have hstarted : p / 8 * 8 < s.numberOfBitsUsed := by omega
      rw [List.getElem?_append_left hlt, h.bit_iff p hstarted]
      have hnot : ¬ (contents ops).length ≤ p := Nat.not_le_of_lt hlt
      tauto
    · have hle' : (contents ops).length ≤ p := Nat.le_of_not_lt hlt
      rw [List.getElem?_append_right hle']
      have hnone : (contents ops)[p]? = none := List.getElem?_eq_none hle'
      by_cases hstarted : p / 8 * 8 < s.numberOfBitsUsed
      · rw [h.bit_iff p hstarted, hnone]
        simp only [reduceCtorEq, false_or]
        tauto
      · have hnot : ¬ Stray ops p := fun hstray => hstarted (h.stray_lt p hstray)
        tauto
  · intro p hp
    rw [hused]
    rcases stray_concat.mp hp with hold | ⟨input, rfl, hnew⟩
    · exact Nat.lt_of_lt_of_le (h.stray_lt p hold) hle
    · have hlt := hnew.2.1
      rw [h.used_eq]
      simpa [WriteOp.content] using hlt

theorem shows_run (memory : ℕ → UInt8) (ops : List WriteOp) : Shows (run memory ops) ops := by
  induction ops using List.reverseRecOn with
  | nil =>
    have hnone : ∀ p, ¬ Stray [] p := by
      rintro p ⟨before, input, after, heq, -⟩
      simp at heq
    exact ⟨rfl, rfl, fun p hp => absurd hp (Nat.not_lt_zero _), fun p hp => absurd hp (hnone p)⟩
  | append_singleton ops op ih =>
    rw [run_concat]
    exact ih.apply op

theorem readBack_eq {count : ℕ} {s : StreamMemory} (h : count ≤ s.getNumberOfUnreadBits) :
    readBack count s = (List.range count).map s.unreadBit := by
  induction count generalizing s with
  | zero => rfl
  | succ count ih =>
    have hunread : s.readOffset + (count + 1) ≤ s.numberOfBitsUsed := by
      rw [getNumberOfUnreadBits] at h
      split at h <;> omega
    have hread : s.readBit = (s.unreadBit 0, { s with readOffset := s.readOffset + 1 }) := by
      rw [readBit, if_neg (by omega), nextBit_eq]
      rfl
    rw [readBack, hread, ih, List.range_succ_eq_map, List.map_cons, List.map_map]
    · congr 1
      apply List.map_congr_left
      intro j _
      show bitAt s.data (s.readOffset + 1 + j) = bitAt s.data (s.readOffset + (j + 1))
      congr 1
      omega
    · rw [getNumberOfUnreadBits]
      dsimp only
      split <;> omega

/-- Reading a stream back after any writes on any memory yields the bits of every one of them,
exactly if no left-aligned copy leaves a bit that is not meant but set on a place where a later
write puts a zero. -/
theorem reads_back_iff (memory : ℕ → UInt8) (ops : List WriteOp) :
    ((run memory ops).numberOfBitsUsed = (contents ops).length ∧
        ∀ (p : ℕ) (b : Bool), (contents ops)[p]? = some (some b) →
          (readBack (contents ops).length (run memory ops))[p]? = some b) ↔
      ∀ before input after, ops = before ++ .writeBits input false :: after →
        ∀ p, StrayAt (contents before).length input p →
          (contents ops)[p]? ≠ some (some false) := by
  have h := shows_run memory ops
  have hread : readBack (contents ops).length (run memory ops) =
      (List.range (contents ops).length).map (bitAt (run memory ops).data) := by
    rw [readBack_eq]
    · apply List.map_congr_left
      intro j _
      rw [unreadBit, h.readOffset_eq, Nat.zero_add]
    · rw [getNumberOfUnreadBits, h.readOffset_eq, h.used_eq]
      split <;> omega
  have hat : ∀ p, p < (contents ops).length →
      (readBack (contents ops).length (run memory ops))[p]? =
        some (bitAt (run memory ops).data p) := by
    intro p hp
    rw [hread, List.getElem?_map, List.getElem?_range hp, Option.map_some]
  have hlt : ∀ (p : ℕ) (b : Option Bool), (contents ops)[p]? = some b →
      p < (contents ops).length := fun p b hp => (List.getElem?_eq_some_iff.mp hp).1
  constructor
  · rintro ⟨-, hall⟩ before input after heq p hstray hzero
    have hin := hlt p _ hzero
    have hbit := (hat p hin).symm.trans (hall p false hzero)
    have hset := (h.bit_iff p (by rw [h.used_eq]; omega)).mpr
      (.inr ⟨before, input, after, heq, hstray⟩)
    rw [hset] at hbit
    simp at hbit
  · intro hno
    refine ⟨h.used_eq, fun p b hp => ?_⟩
    have hin := hlt p _ hp
    have hiff := h.bit_iff p (by rw [h.used_eq]; omega)
    rw [hat p hin]
    congr 1
    cases b with
    | true => exact hiff.mpr (.inl hp)
    | false =>
      rw [Bool.eq_false_iff, Ne, hiff, hp]
      rintro (hcase | ⟨before, input, after, heq, hstray⟩)
      · cases hcase
      · exact hno before input after heq p hstray hp

/-- One bit of a byte of ones, and a zero. -/
theorem zero_behind_left_aligned :
    ¬ ∀ (memory : ℕ → UInt8) (ops : List WriteOp) (p : ℕ) (b : Bool),
      (contents ops)[p]? = some (some b) →
        (readBack (contents ops).length (run memory ops))[p]? = some b := by
  intro h
  have hread := h (fun _ => 0) [.writeBits ⟨[0xFF], 1, by decide⟩ false, .write0] 1 false
    (by decide)
  revert hread
  decide

end StreamMemory

end SLikeNet
