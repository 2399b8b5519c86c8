import SLikeNet.StreamMemory

/-! `BitStream::Write(BitStream*, BitSize_t)`: one stream is appended to another, or to itself. -/

namespace SLikeNet

open BitMemory

namespace StreamMemory

variable {ι : Type*} [DecidableEq ι]

/-- The bit at the read offset of one stream is put behind the other one, and both move on. -/
def appendBit (dst src : ι) (streams : ι → StreamMemory) : ι → StreamMemory :=
  let written :=
    { streams dst with
      data := putBit (streams dst).data (streams dst).numberOfBitsUsed (streams src).nextBit }
  let streams := Function.update streams dst written
  let streams :=
    Function.update streams src
      { streams src with readOffset := (streams src).readOffset + 1 }
  Function.update streams dst
    { streams dst with numberOfBitsUsed := (streams dst).numberOfBitsUsed + 1 }

def appendLoop (dst src : ι) : ℕ → (ι → StreamMemory) → ι → StreamMemory
  | 0, streams => streams
  | numberOfBits + 1, streams => appendLoop dst src numberOfBits (appendBit dst src streams)

/-- The copy of the whole bytes of streams that are both at a byte boundary. -/
def appendBytes (dst src : ι) (numBytes : ℕ) (streams : ι → StreamMemory) : ι → StreamMemory :=
  let readOffsetBytes := (streams src).readOffset / 8
  let written :=
    { streams dst with
      data := copyBytes (streams dst).data ((streams dst).numberOfBitsUsed / 8)
        (fun k => (streams src).data (readOffsetBytes + k)) numBytes }
  let streams := Function.update streams dst written
  let streams :=
    Function.update streams src
      { streams src with readOffset := 8 * (numBytes + readOffsetBytes) }
  Function.update streams dst
    { streams dst with numberOfBitsUsed := (streams dst).numberOfBitsUsed + 8 * numBytes }

/-- `Write` of a stream. -/
def writeStream (dst src : ι) (numberOfBits : ℕ) (streams : ι → StreamMemory) :
    ι → StreamMemory :=
  if numberOfBits > (streams src).getNumberOfUnreadBits then streams
  else if (streams src).readOffset % 8 = 0 ∧ (streams dst).numberOfBitsUsed % 8 = 0 then
    appendLoop dst src (numberOfBits % 8) (appendBytes dst src (numberOfBits / 8) streams)
  else appendLoop dst src numberOfBits streams

/-- What appending does: the bits are put behind those of the one stream, the other one has moved
on by as many, and nothing else has changed. -/
structure Appends (dst src : ι) (count : ℕ) (bits : ℕ → Bool)
    (streams streams' : ι → StreamMemory) : Prop where
  used_eq : ∀ i, (streams' i).numberOfBitsUsed =
    (streams i).numberOfBitsUsed + if i = dst then count else 0
  readOffset_eq : ∀ i, (streams' i).readOffset =
    (streams i).readOffset + if i = src then count else 0
  data_eq : ∀ i, i ≠ dst → (streams' i).data = (streams i).data
  overlays : Overlays (streams dst).data (streams' dst).data (streams dst).numberOfBitsUsed
    ((streams dst).numberOfBitsUsed + count) fun p =>
      decide ((streams dst).numberOfBitsUsed ≤ p ∧ p < (streams dst).numberOfBitsUsed + count) &&
        bits (p - (streams dst).numberOfBitsUsed)

/-- The bits that are still to be read are these; in a stream that is appended to itself they lie
before its end. -/
structure Ahead (dst src : ι) (count : ℕ) (bits : ℕ → Bool) (streams : ι → StreamMemory) :
    Prop where
  bit_eq : ∀ j < count, bitAt (streams src).data ((streams src).readOffset + j) = bits j
  before : dst = src → ∀ j < count,
    (streams src).readOffset + j < (streams src).numberOfBitsUsed

variable {dst src : ι} {count count' : ℕ} {bits : ℕ → Bool}
  {streams streams' streams'' : ι → StreamMemory}

theorem Appends.refl (dst src : ι) (bits : ℕ → Bool) (streams : ι → StreamMemory) :
    Appends dst src 0 bits streams streams := by
  refine ⟨fun i => ?_, fun i => ?_, fun _ _ => rfl, ?_⟩
  · rw [ite_self, Nat.add_zero]
  · rw [ite_self, Nat.add_zero]
  · apply (Overlays.refl _ _).congr
    intro p _
    rw [decide_eq_false (by omega), Bool.false_and]

theorem Appends.trans (h : Appends dst src count bits streams streams')
    (h' : Appends dst src count' (fun j => bits (count + j)) streams' streams'') :
    Appends dst src (count + count') bits streams streams'' := by
  have hdst : (streams' dst).numberOfBitsUsed = (streams dst).numberOfBitsUsed + count := by
    rw [h.used_eq, if_pos rfl]
  refine ⟨fun i => ?_, fun i => ?_, fun i hi => (h'.data_eq i hi).trans (h.data_eq i hi), ?_⟩
  · rw [h'.used_eq, h.used_eq, Nat.add_assoc]
    split <;> rfl
  · rw [h'.readOffset_eq, h.readOffset_eq, Nat.add_assoc]
    split <;> rfl
  · have hnext := h'.overlays
    rw [hdst, Nat.add_assoc] at hnext
    apply (h.overlays.trans hnext).congr
    intro p _
    generalize (streams dst).numberOfBitsUsed = used
    by_cases hfirst : used ≤ p ∧ p < used + count
    · rw [decide_eq_true hfirst, decide_eq_true (by omega), decide_eq_true (by omega),
        decide_eq_false (by omega)]
      simp only [Bool.true_and, Bool.false_and, Bool.or_false]
    · rw [decide_eq_false hfirst, Bool.false_and, Bool.and_false, Bool.false_or]
      by_cases hin : used + count ≤ p ∧ p < used + (count + count')
      · rw [decide_eq_true hin, decide_eq_true (by omega)]
        congr 2
        omega
      · rw [decide_eq_false hin, decide_eq_false (by omega), Bool.false_and, Bool.false_and]

theorem Ahead.rest (hahead : Ahead dst src (count + count') bits streams)
    (h : Appends dst src count bits streams streams') :
    Ahead dst src count' (fun j => bits (count + j)) streams' := by
  have hoffset : (streams' src).readOffset = (streams src).readOffset + count := by
    rw [h.readOffset_eq, if_pos rfl]
  constructor
  · intro j hj
    rw [hoffset, Nat.add_assoc, ← hahead.bit_eq (count + j) (by omega)]
    by_cases hself : dst = src
    · subst hself
      exact h.overlays.bitAt_eq (hahead.before rfl (count + j) (by omega))
    · rw [h.data_eq src fun heq => hself heq.symm]
  · intro hself j hj
    have hbefore := hahead.before hself (count + j) (by omega)
    rw [hoffset, h.used_eq]
    omega

theorem appends_of_overlays {data : ℕ → UInt8} {readOffset : ℕ}
    (hoverlays : Overlays (streams dst).data data (streams dst).numberOfBitsUsed
      ((streams dst).numberOfBitsUsed + count) fun p =>
        decide ((streams dst).numberOfBitsUsed ≤ p ∧ p < (streams dst).numberOfBitsUsed + count) &&
          bits (p - (streams dst).numberOfBitsUsed))
    (hread : readOffset = (streams src).readOffset + count) (written read : ι → StreamMemory)
    (hwritten : written = Function.update streams dst { streams dst with data := data })
    (hmoved : read = Function.update written src { written src with readOffset := readOffset }) :
    Appends dst src count bits streams
      (Function.update read dst
        { read dst with numberOfBitsUsed := (read dst).numberOfBitsUsed + count }) := by
  subst hwritten hmoved hread
  refine ⟨fun i => ?_, fun i => ?_, fun i hi => ?_, ?_⟩
  · by_cases hdst : i = dst
    · subst hdst
      by_cases hsrc : i = src
      · subst hsrc
        simp
      · simp [hsrc]
    · by_cases hsrc : i = src
      · subst hsrc
        simp [hdst]
      · simp [hdst, hsrc]
  · by_cases hdst : i = dst
    · subst hdst
      by_cases hsrc : i = src
      · subst hsrc
        simp
      · simp [hsrc]
    · by_cases hsrc : i = src
      · subst hsrc
        simp [hdst]
      · simp [hdst, hsrc]
  · by_cases hsrc : i = src
    · subst hsrc
      simp [hi]
    · simp [hi, hsrc]
  · by_cases hsrc : dst = src
    · subst hsrc
      simpa using hoverlays
    · simpa [hsrc] using hoverlays

theorem appends_appendBit (h : (streams src).nextBit = bits 0) :
    Appends dst src 1 bits streams (appendBit dst src streams) := by
  have hput := overlays_putBit (streams dst).data (streams dst).numberOfBitsUsed (bits 0)
  rw [← h] at hput
  refine appends_of_overlays (hput.congr fun p _ => ?_) ?_ _ _ rfl rfl
  · generalize (streams dst).numberOfBitsUsed = used
    by_cases hp : p = used
    · subst hp
      rw [decide_eq_true (by omega), decide_eq_true rfl, Nat.sub_self, h]
    · rw [decide_eq_false (by omega), decide_eq_false hp, Bool.false_and, Bool.false_and]
  · by_cases hself : src = dst
    · subst hself
      rw [Function.update_self]
    · rw [Function.update_of_ne hself]

theorem appends_appendLoop (h : Ahead dst src count bits streams) :
    Appends dst src count bits streams (appendLoop dst src count streams) := by
  induction count generalizing bits streams with
  | zero => exact .refl dst src bits streams
  | succ count ih =>
    have hbit : (streams src).nextBit = bits 0 := by
      rw [nextBit_eq, ← h.bit_eq 0 (by omega), Nat.add_zero]
    have hstep : Appends dst src 1 bits streams (appendBit dst src streams) :=
      appends_appendBit hbit
    rw [appendLoop, Nat.add_comm]
    rw [Nat.add_comm] at h
    exact hstep.trans (ih (h.rest hstep))

theorem appends_appendBytes {numBytes : ℕ} (h : Ahead dst src (8 * numBytes) bits streams)
    (hread : (streams src).readOffset % 8 = 0) (hused : (streams dst).numberOfBitsUsed % 8 = 0) :
    Appends dst src (8 * numBytes) bits streams (appendBytes dst src numBytes streams) := by
  have hcopy := overlays_copyBytes (streams dst).data
    (fun k => (streams src).data ((streams src).readOffset / 8 + k)) hused numBytes
  refine appends_of_overlays (hcopy.congr fun p _ => ?_) ?_ _ _ rfl rfl
  · by_cases hin : (streams dst).numberOfBitsUsed ≤ p ∧
        p < (streams dst).numberOfBitsUsed + 8 * numBytes
    · have hindex : (streams src).readOffset / 8 + (p - (streams dst).numberOfBitsUsed) / 8 =
          ((streams src).readOffset + (p - (streams dst).numberOfBitsUsed)) / 8 := by omega
      have hbit : (p - (streams dst).numberOfBitsUsed) % 8 =
          ((streams src).readOffset + (p - (streams dst).numberOfBitsUsed)) % 8 := by omega
      rw [← h.bit_eq _ (by omega), bitAt, bitAt, hindex, hbit]
    · rw [decide_eq_false hin, Bool.false_and, Bool.false_and]
  · omega

/-- The bits that the source has not read yet, from its read offset on. -/
def unreadBit (s : StreamMemory) (j : ℕ) : Bool := bitAt s.data (s.readOffset + j)

theorem appends_writeStream (h : count ≤ (streams src).getNumberOfUnreadBits) :
    Appends dst src count (streams src).unreadBit streams
      (writeStream dst src count streams) := by
  have hahead : Ahead dst src count (streams src).unreadBit streams := by
    refine ⟨fun j _ => rfl, fun _ j hj => ?_⟩
    rw [getNumberOfUnreadBits] at h
    split at h <;> omega
  rw [writeStream, if_neg (Nat.not_lt_of_le h)]
  split
  · rename_i haligned
    have hcount : 8 * (count / 8) + count % 8 = count := by omega
    have hbytes : Ahead dst src (8 * (count / 8)) (streams src).unreadBit streams :=
      ⟨fun j _ => rfl, fun hself j hj => hahead.before hself j (by omega)⟩
    have hcopied := appends_appendBytes hbytes haligned.1 haligned.2
    rw [← hcount] at hahead
    have hrest := hcopied.trans (appends_appendLoop (hahead.rest hcopied))
    rw [hcount] at hrest
    exact hrest
  · exact appends_appendLoop hahead

/-- The bits of a stream up to an offset. -/
def usedBits (s : StreamMemory) (count : ℕ) : List Bool := (List.range count).map (bitAt s.data)

theorem usedBits_writeStream (h : count ≤ (streams src).getNumberOfUnreadBits) :
    (writeStream dst src count streams dst).usedBits ((streams dst).numberOfBitsUsed + count) =
      (streams dst).usedBits (streams dst).numberOfBitsUsed ++ (List.range count).map fun j =>
        (decide (((streams dst).numberOfBitsUsed + j) / 8 * 8 < (streams dst).numberOfBitsUsed) &&
          bitAt (streams dst).data ((streams dst).numberOfBitsUsed + j)) ||
        (streams src).unreadBit j := by
  have hoverlays := (appends_writeStream h : Appends dst src count _ streams _).overlays
  rw [usedBits, usedBits, List.range_add, List.map_append, List.map_map]
  congr 1
  · apply List.map_congr_left
    intro p hp
    exact hoverlays.bitAt_eq (List.mem_range.mp hp)
  · apply List.map_congr_left
    intro j hj
    have hlt := List.mem_range.mp hj
    rw [Function.comp_apply, hoverlays.bit_eq _ (by omega), Nat.add_sub_cancel_left,
      decide_eq_true (show (streams dst).numberOfBitsUsed ≤ (streams dst).numberOfBitsUsed + j ∧
        (streams dst).numberOfBitsUsed + j < (streams dst).numberOfBitsUsed + count by omega),
      Bool.true_and]

/-- Appending is concatenation, moves both offsets by the number of bits, and a call with too
many bits does nothing, exactly if behind the used bits of the destination, in the byte that was
started, every bit that is set meets one that is set in the source. -/
theorem writeStream_concat_iff (dst src : ι) (count : ℕ) (streams : ι → StreamMemory) :
    ((count ≤ (streams src).getNumberOfUnreadBits →
        (writeStream dst src count streams dst).usedBits
            ((streams dst).numberOfBitsUsed + count) =
          (streams dst).usedBits (streams dst).numberOfBitsUsed ++
            (List.range count).map (streams src).unreadBit ∧
          (writeStream dst src count streams src).readOffset =
            (streams src).readOffset + count ∧
          (writeStream dst src count streams dst).numberOfBitsUsed =
            (streams dst).numberOfBitsUsed + count) ∧
      (count > (streams src).getNumberOfUnreadBits →
        writeStream dst src count streams = streams)) ↔
      (count ≤ (streams src).getNumberOfUnreadBits → ∀ j < count,
        ((streams dst).numberOfBitsUsed + j) / 8 * 8 < (streams dst).numberOfBitsUsed →
        bitAt (streams dst).data ((streams dst).numberOfBitsUsed + j) = true →
          (streams src).unreadBit j = true) := by
  by_cases h : count ≤ (streams src).getNumberOfUnreadBits
  · have happends : Appends dst src count (streams src).unreadBit streams _ :=
      appends_writeStream h
    have hread : (writeStream dst src count streams src).readOffset =
        (streams src).readOffset + count := by rw [happends.readOffset_eq, if_pos rfl]
    have hused : (writeStream dst src count streams dst).numberOfBitsUsed =
        (streams dst).numberOfBitsUsed + count := by rw [happends.used_eq, if_pos rfl]
    have htoo : ¬ count > (streams src).getNumberOfUnreadBits := Nat.not_lt_of_le h
    simp only [h, htoo, hread, hused, true_implies, false_implies, and_true]
    rw [usedBits_writeStream h, List.append_cancel_left_eq, List.map_inj_left]
    constructor
    · intro hsame j hj hstarted hset
      have hbit := hsame j (List.mem_range.mpr hj)
      rw [decide_eq_true hstarted, hset] at hbit
      exact hbit.symm
    · intro hmeets j hj
      cases hunread : (streams src).unreadBit j with
      | true => exact Bool.or_true _
      | false =>
        rw [Bool.or_false, Bool.and_eq_false_iff, decide_eq_false_iff_not]
        by_cases hstarted : ((streams dst).numberOfBitsUsed + j) / 8 * 8 <
            (streams dst).numberOfBitsUsed
        · right
          rw [Bool.eq_false_iff]
          intro hset
          have := hmeets j (List.mem_range.mp hj) hstarted hset
          rw [hunread] at this
          cases this
        · exact .inl hstarted
  · have htoo : count > (streams src).getNumberOfUnreadBits := Nat.lt_of_not_le h
    have hsame : writeStream dst src count streams = streams := if_pos htoo
    simp only [h, hsame, false_implies, implies_true, and_self]

/-- A stream that holds one bit of a byte of ones, as a copy of left-aligned bits leaves it. -/
def oneBit : StreamMemory := writeBits ⟨fun _ => 0, 0, 0⟩ ⟨[0xFF], 1, by decide⟩ false

/-- A zero that is appended behind the one bit is read as a one. -/
theorem append_zero_to_oneBit :
    ¬ ∀ (dst src : Bool) (count : ℕ) (streams : Bool → StreamMemory),
      count ≤ (streams src).getNumberOfUnreadBits →
        (writeStream dst src count streams dst).usedBits
            ((streams dst).numberOfBitsUsed + count) =
          (streams dst).usedBits (streams dst).numberOfBitsUsed ++
            (List.range count).map (streams src).unreadBit := by
  intro h
  have hbits := h true false 1 (fun i => if i then oneBit else write0 ⟨fun _ => 0, 0, 0⟩)
    (by decide)
  revert hbits
  decide

end StreamMemory

end SLikeNet
