import Mathlib.Algebra.Group.Nat.Defs
import SLikeNet.ByteQueue
import SLikeNet.Library.Transition

/-! `ByteQueue` as a queue: the runs in which what is read is what was written. -/

namespace SLikeNet

namespace ByteQueue

inductive Operation
  | writeBytes (input : List UInt8)
  | readBytes (maxLengthToRead : ℕ) (peek : Bool)
  | incrementReadOffset (length : ℕ)
  | decrementReadOffset (length : ℕ)

/-- What a call does, `none` for a write beyond the allocated bytes or a division by zero. -/
def step (q : ByteQueue) : Operation → Option ByteQueue
  | .writeBytes input => q.writeBytes input
  | .readBytes maxLengthToRead peek => some (if peek then q else (q.readBytes maxLengthToRead).2)
  -- the new offset is a remainder modulo `lengthAllocated`
  | .incrementReadOffset length =>
    if q.lengthAllocated = 0 then none else some (q.incrementReadOffset length)
  | .decrementReadOffset length => some (q.decrementReadOffset length)

def next (q : Option ByteQueue) (operation : Operation) : Option ByteQueue :=
  q.bind (step · operation)

def run (operations : List Operation) : Option ByteQueue := operations.foldl next (some empty)

end ByteQueue

/-- The bytes that were written and not consumed, how many were written in all, and what the
increment of the read offset right before has skipped. -/
structure ByteFifo where
  unread : List UInt8
  written : ℕ
  skipped : Option (List UInt8)

namespace ByteFifo

open ByteQueue

def step (fifo : ByteFifo) : Operation → ByteFifo
  | .writeBytes input => ⟨fifo.unread ++ input, fifo.written + input.length, none⟩
  | .readBytes maxLengthToRead peek =>
    ⟨if peek then fifo.unread else fifo.unread.drop maxLengthToRead, fifo.written, none⟩
  | .incrementReadOffset length =>
    ⟨fifo.unread.drop length, fifo.written, some (fifo.unread.take length)⟩
  | .decrementReadOffset _ => ⟨fifo.skipped.getD [] ++ fifo.unread, fifo.written, none⟩

def empty : ByteFifo := ⟨[], 0, none⟩

def run (operations : List Operation) : ByteFifo := operations.foldl step empty

/-- What the callers keep to. -/
def Allowed (fifo : ByteFifo) : Operation → Prop
  | .writeBytes input => fifo.written + input.length < 2 ^ 31
  | .readBytes _ _ => True
  | .incrementReadOffset length => length ≤ fifo.unread.length
  | .decrementReadOffset length => ∃ bytes, fifo.skipped = some bytes ∧ bytes.length = length

def AllAllowed (operations : List Operation) : Prop :=
  Transition.Along step Allowed empty operations

/-- The number of bytes and every read are those of the queue of bytes. -/
structure Shown (fifo : ByteFifo) (q : ByteQueue) : Prop where
  getBytesWritten : q.getBytesWritten = fifo.unread.length
  read : ∀ maxLengthToRead, (q.readBytes maxLengthToRead).1 = fifo.unread.take maxLengthToRead
  offsets : q.writeOffset = q.readOffset → fifo.unread = []

end ByteFifo

namespace ByteQueue

/-- After every call of the run the queue is the one of the bytes. -/
def IsFifo (operations : List Operation) : Prop :=
  ∀ before, before <+: operations → ∃ q, run before = some q ∧ (ByteFifo.run before).Shown q

/-- A write does not let `lengthAllocated` exceed 32 bits, and the read offset is not moved where
nothing is allocated. -/
def Fitting (q : ByteQueue) : Operation → Prop
  | .writeBytes input => q.NeedsToGrow input.length →
    q.lengthAllocated + max 256 (input.length + q.lengthAllocated + 1) < 4294967296
  | .incrementReadOffset _ => q.lengthAllocated ≠ 0
  | _ => True

def AllFitting (operations : List Operation) : Prop :=
  Transition.Along next (fun q operation => ∀ q', q = some q' → q'.Fitting operation) (some empty)
    operations

theorem run_concat (operations : List Operation) (operation : Operation) :
    run (operations ++ [operation]) = (run operations).bind (step · operation) := by
  rw [run, List.foldl_append]
  rfl

end ByteQueue

theorem ByteFifo.run_concat (operations : List ByteQueue.Operation)
    (operation : ByteQueue.Operation) :
    ByteFifo.run (operations ++ [operation]) = (ByteFifo.run operations).step operation := by
  simp [ByteFifo.run]

namespace ByteQueue

variable {q q' : ByteQueue} {fifo : ByteFifo} {operation : Operation}

/-- The queue holds the bytes; its read offset is not more than the number of bytes that were
consumed. -/
structure Holds (fifo : ByteFifo) (q : ByteQueue) : Prop where
  ok : q.Ok
  contents : q.contents = fifo.unread
  consumed : q.readOffset + fifo.unread.length ≤ fifo.written
  written : fifo.written < 2 ^ 31
  before : ∀ bytes, fifo.skipped = some bytes → ∃ q₀ : ByteQueue, q₀.Ok ∧
    q₀.contents = bytes ++ fifo.unread ∧ q = q₀.incrementReadOffset bytes.length ∧
    q₀.readOffset + q₀.contents.length ≤ fifo.written

theorem holds_empty : Holds (ByteFifo.run []) empty where
  ok := ⟨by decide, .inr ⟨rfl, rfl⟩, .inr ⟨rfl, rfl⟩⟩
  contents := rfl
  consumed := Nat.le_refl 0
  written := by decide
  before _ hbytes := by cases hbytes

theorem Holds.shown (h : Holds fifo q) : fifo.Shown q where
  getBytesWritten := by rw [getBytesWritten_eq h.ok, h.contents]
  read maxLengthToRead := by
    rw [readBytes, ← h.contents]
    exact peekBytes_eq h.ok maxLengthToRead
  offsets hsame := by
    rw [← h.contents, ByteQueue.contents, if_pos (Nat.le_of_eq hsame.symm), hsame, Nat.sub_self]
    rfl

theorem Holds.increment (h : Holds fifo q) {length : ℕ} (hlength : length ≤ fifo.unread.length) :
    (q.incrementReadOffset length).Ok ∧
      (q.incrementReadOffset length).contents = fifo.unread.drop length ∧
      (q.incrementReadOffset length).readOffset + (fifo.unread.drop length).length ≤
        fifo.written := by
  have hconsumed := h.consumed
  have hwritten := h.written
  have hsum : q.readOffset + length < 4294967296 := by omega
  obtain ⟨hok, hcontents⟩ := h.ok.incrementReadOffset length (by rwa [h.contents]) hsum
  have hle := readOffset_increment_le q length hsum
  rw [h.contents] at hcontents
  refine ⟨hok, hcontents, ?_⟩
  rw [List.length_drop]
  omega

theorem Holds.step (h : Holds fifo q) (hallowed : fifo.Allowed operation)
    (hfitting : q.Fitting operation) :
    ∃ q', q.step operation = some q' ∧ Holds (fifo.step operation) q' := by
  have hconsumed := h.consumed
  have hwritten := h.written
  cases operation with
  | writeBytes input =>
    have htotal : fifo.written + input.length < 2 ^ 31 := hallowed
    obtain ⟨q', hq', hok, hcontents, hoffset⟩ :=
      @writeBytes_spec q input h.ok ⟨hfitting, by rw [h.contents]; omega⟩
    refine ⟨q', hq', hok, by rw [hcontents, h.contents]; rfl, ?_, htotal, nofun⟩
    show q'.readOffset + (fifo.unread ++ input).length ≤ fifo.written + input.length
    rw [hoffset, List.length_append]
    omega
  | readBytes maxLengthToRead peek =>
    cases peek with
    | true => exact ⟨q, rfl, h.ok, h.contents, hconsumed, hwritten, nofun⟩
    | false =>
      refine ⟨_, rfl, ?_⟩
      have hread := h.shown.read maxLengthToRead
      rw [readBytes] at hread ⊢
      dsimp only at hread ⊢
      rw [hread, if_neg Bool.false_ne_true]
      split
      · rename_i hnil
        have hsame : fifo.unread.drop maxLengthToRead = fifo.unread := by
          rcases List.take_eq_nil_iff.mp hnil with hzero | hnil
          · rw [hzero, List.drop_zero]
          · rw [hnil, List.drop_nil]
        exact ⟨h.ok, h.contents.trans hsame.symm, by show _ + (List.drop _ _).length ≤ _; rwa [hsame],
          hwritten, nofun⟩
      · have hdrop : fifo.unread.drop (fifo.unread.take maxLengthToRead).length =
            fifo.unread.drop maxLengthToRead := by
          rw [List.length_take]
          rcases Nat.le_total maxLengthToRead fifo.unread.length with hle | hle
          · rw [Nat.min_eq_left hle]
          · rw [Nat.min_eq_right hle, List.drop_length, List.drop_eq_nil_of_le hle]
        obtain ⟨hok, hcontents, hle⟩ :=
          h.increment (List.length_take_le' maxLengthToRead fifo.unread)
        rw [hdrop] at hcontents hle
        exact ⟨hok, hcontents, hle, hwritten, nofun⟩
  | incrementReadOffset length =>
    have hlength : length ≤ fifo.unread.length := hallowed
    obtain ⟨hok, hcontents, hle⟩ := h.increment hlength
    refine ⟨_, if_neg hfitting, hok, hcontents, hle, hwritten, fun bytes hbytes => ?_⟩
    obtain rfl := Option.some.inj hbytes
    refine ⟨q, h.ok, ?_, ?_, ?_⟩
    · rw [h.contents]
      exact (List.take_append_drop length fifo.unread).symm
    · rw [List.length_take_of_le hlength]
    · rw [h.contents]
      exact hconsumed
  | decrementReadOffset length =>
    obtain ⟨bytes, hskipped, rfl⟩ := hallowed
    obtain ⟨q₀, hok, hcontents, rfl, hle⟩ := h.before bytes hskipped
    have hlength := congrArg List.length hcontents
    rw [List.length_append] at hlength
    refine ⟨_, rfl, ?_⟩
    rw [decrement_increment hok (by omega) (by omega)]
    refine ⟨hok, ?_, ?_, hwritten, nofun⟩
    · rw [hcontents, ByteFifo.step, hskipped]
      rfl
    · rw [ByteFifo.step, hskipped]
      dsimp only [Option.getD_some]
      rw [← hcontents]
      exact hle

/-! ### Writes that do not fit -/

theorem length_le_of_copy {lengthAllocated offset : ℕ} {bytes : List UInt8} {data data' : ℕ → UInt8}
    (h : copy lengthAllocated offset bytes data = some data') :
    offset + bytes.length ≤ lengthAllocated := by
  rw [copy] at h
  split at h
  · assumption
  · cases h

theorem wrapped_lt (h : q.Ok) {length : ℕ} (hgrow : q.NeedsToGrow length)
    (hsum : q.contents.length + length < 2 ^ 31)
    (hover : ¬ q.lengthAllocated + max 256 (length + q.lengthAllocated + 1) < 4294967296) :
    0 < length ∧
      wrap (q.lengthAllocated + q.newAmountToAllocate length) < q.contents.length + length ∧
      wrap (q.lengthAllocated + q.newAmountToAllocate length) < q.lengthAllocated := by
  have hpos : 0 < length := by
    rcases hgrow with hzero | hmore
    · omega
    · exact Nat.zero_lt_of_lt hmore
  have hle : q.lengthAllocated ≤ q.contents.length + length := by
    rcases hgrow with hzero | hmore
    · omega
    · have hsmall := h.small
      rcases length_contents_lt h with hlt | hnil
      · rw [getBytesWritten_eq h, sub_eq hsmall (by omega), sub_eq (by omega) (by omega)] at hmore
        omega
      · rw [getBytesWritten_eq h, hnil, List.length_nil, sub_eq hsmall (by omega),
          Nat.sub_zero] at hmore
        by_cases hzero : q.lengthAllocated = 0
        · omega
        · rw [sub_eq hsmall (by omega)] at hmore
          omega
  have hamount : q.newAmountToAllocate length = length + q.lengthAllocated + 1 := by
    rw [newAmountToAllocate, wrap_eq (by omega)]
    omega
  rw [hamount, wrap]
  omega

theorem put_eq_some {input : List UInt8} (h : q.put input = some q') (hinput : 0 < input.length) :
    ∃ data, q' = { q with
      data := data
      writeOffset := wrap (q.writeOffset + input.length) % q.lengthAllocated } ∧
        0 < q.lengthAllocated := by
  rw [put] at h
  dsimp only at h
  split at h
  · obtain ⟨data, hdata, hq'⟩ := Option.bind_eq_some_iff.mp h
    have hle := length_le_of_copy hdata
    exact ⟨data, (Option.some.inj hq').symm, by omega⟩
  · obtain ⟨data, hdata, hq'⟩ := Option.bind_eq_some_iff.mp h
    obtain ⟨_, hfirst, hsecond⟩ := Option.bind_eq_some_iff.mp hdata
    refine ⟨data, (Option.some.inj hq').symm, ?_⟩
    have hle := length_le_of_copy hfirst
    have hle' := length_le_of_copy hsecond
    rw [List.length_take] at hle
    rw [List.length_drop] at hle'
    omega

theorem writeBytes_overflow (h : q.Ok) {input : List UInt8} (hgrow : q.NeedsToGrow input.length)
    (hsum : q.readOffset + q.contents.length + input.length < 2 ^ 31)
    (hover : ¬ q.lengthAllocated + max 256 (input.length + q.lengthAllocated + 1) < 4294967296)
    (hwrite : q.writeBytes input = some q') :
    q'.getBytesWritten ≠ q.contents.length + input.length := by
  obtain ⟨hinput, hless, hshrunk⟩ := wrapped_lt h hgrow (by omega) hover
  obtain ⟨hsmall, hread, hwriteOffset⟩ := h
  rw [writeBytes, if_pos hgrow, grow] at hwrite
  generalize wrap (q.lengthAllocated + q.newAmountToAllocate input.length) = size at *
  have hnone : ∀ bytes : List UInt8, copy size q.lengthAllocated bytes q.data = none := fun bytes =>
    if_neg (by omega)
  by_cases hwrapped : q.writeOffset < q.readOffset
  · -- the memory has shrunk to less than the place behind the old end
    simp only [if_pos hwrapped, hnone, Option.bind_eq_bind, Option.bind_none, ite_self,
      reduceCtorEq] at hwrite
  · rw [if_neg hwrapped, Option.bind_some] at hwrite
    obtain ⟨data, rfl, hpos⟩ := put_eq_some hwrite hinput
    dsimp only at hpos
    have hoffset := Nat.mod_lt (wrap (q.writeOffset + input.length)) hpos
    rw [getBytesWritten]
    dsimp only
    generalize wrap (q.writeOffset + input.length) % size = writeOffset at *
    rw [sub, wrap, wrap]
    split
    · omega
    · omega

theorem Holds.not_fitting (h : Holds fifo q) (hallowed : fifo.Allowed operation)
    (hnot : ¬ q.Fitting operation) :
    ¬ ∃ q', q.step operation = some q' ∧ (fifo.step operation).Shown q' := by
  rintro ⟨q', hstep, hshown⟩
  have hconsumed := h.consumed
  cases operation with
  | writeBytes input =>
    have htotal : fifo.written + input.length < 2 ^ 31 := hallowed
    obtain ⟨hgrow, hover⟩ := Classical.not_imp.mp hnot
    refine writeBytes_overflow h.ok hgrow (by rw [h.contents]; omega) hover hstep ?_
    rw [hshown.getBytesWritten, h.contents]
    exact List.length_append
  | incrementReadOffset length =>
    rw [ByteQueue.step, if_pos (not_not.mp hnot)] at hstep
    cases hstep
  | readBytes => exact hnot trivial
  | decrementReadOffset => exact hnot trivial

/-! ### Runs -/

theorem isFifo_concat {operations : List Operation} :
    IsFifo (operations ++ [operation]) ↔ IsFifo operations ∧
      ∃ q, run (operations ++ [operation]) = some q ∧
        (ByteFifo.run (operations ++ [operation])).Shown q := by
  constructor
  · intro h
    refine ⟨fun before hprefix => h before ?_, h _ (List.prefix_refl _)⟩
    exact hprefix.trans (List.prefix_append operations [operation])
  · rintro ⟨hall, hlast⟩ before hprefix
    rcases List.prefix_concat_iff.mp hprefix with rfl | hprefix
    · exact hlast
    · exact hall before hprefix

theorem holds_run {operations : List Operation} (hallowed : ByteFifo.AllAllowed operations)
    (hfitting : AllFitting operations) :
    ∃ q, run operations = some q ∧ Holds (ByteFifo.run operations) q := by
  induction operations using List.reverseRecOn with
  | nil => exact ⟨empty, rfl, holds_empty⟩
  | append_singleton operations operation ih =>
    obtain ⟨hallowed, hlast⟩ := Transition.along_concat_iff.mp hallowed
    obtain ⟨hfitting, hfits⟩ := Transition.along_concat_iff.mp hfitting
    obtain ⟨q, hq, hholds⟩ := ih hallowed hfitting
    obtain ⟨q', hq', hnext⟩ := hholds.step hlast (hfits q hq)
    refine ⟨q', ?_, ?_⟩
    · rw [run_concat, hq, Option.bind_some, hq']
    · rwa [ByteFifo.run_concat]

/-- The calls are those of a queue of bytes if and only if no write lets `lengthAllocated` exceed
32 bits and the read offset is not moved before the first write. -/
theorem isFifo_iff (operations : List Operation) (hallowed : ByteFifo.AllAllowed operations) :
    IsFifo operations ↔ AllFitting operations := by
  induction operations using List.reverseRecOn with
  | nil =>
    refine ⟨fun _ => Transition.along_nil, fun _ before hprefix => ?_⟩
    obtain rfl := List.prefix_nil.mp hprefix
    exact ⟨empty, rfl, holds_empty.shown⟩
  | append_singleton operations operation ih =>
    obtain ⟨hbefore, hlast⟩ := Transition.along_concat_iff.mp hallowed
    rw [isFifo_concat, AllFitting, Transition.along_concat_iff, ih hbefore]
    refine and_congr_right fun hfitting => ?_
    obtain ⟨q, hq, hholds⟩ := holds_run hbefore hfitting
    rw [run_concat, ByteFifo.run_concat, hq, Option.bind_some]
    constructor
    · intro hshown q' hq'
      obtain rfl := Option.some.inj (hq.symm.trans hq')
      by_contra hnot
      exact hholds.not_fitting hlast hnot hshown
    · intro hfits
      obtain ⟨q', hq', hnext⟩ := hholds.step hlast (hfits q hq)
      exact ⟨q', hq', hnext.shown⟩

theorem isFifo_write_read :
    IsFifo [.writeBytes [1, 2], .readBytes 1 false] ↔
      AllFitting [.writeBytes [1, 2], .readBytes 1 false] := by
  refine isFifo_iff _ (Transition.along_cons (?_ : 0 + 2 < 2 ^ 31)
    (Transition.along_cons trivial Transition.along_nil))
  decide

/-! ### A growth beyond 32 bits -/

theorem lengthAllocated_put {input : List UInt8} (h : q.put input = some q') :
    q'.lengthAllocated = q.lengthAllocated := by
  rw [put] at h
  dsimp only at h
  split at h
  · obtain ⟨data, -, hq⟩ := Option.bind_eq_some_iff.mp h
    rw [← Option.some.inj hq]
  · obtain ⟨data, -, hq⟩ := Option.bind_eq_some_iff.mp h
    rw [← Option.some.inj hq]

theorem lengthAllocated_grow {length : ℕ} (h : q.grow length = some q') :
    q'.lengthAllocated = wrap (q.lengthAllocated + q.newAmountToAllocate length) := by
  rw [grow] at h
  split at h
  · split at h
    · obtain ⟨data, -, hq⟩ := Option.bind_eq_some_iff.mp h
      rw [← Option.some.inj hq]
    · obtain ⟨data, -, hq⟩ := Option.bind_eq_some_iff.mp h
      obtain ⟨data', -, hq⟩ := Option.bind_eq_some_iff.mp hq
      rw [← Option.some.inj hq]
  · rw [← Option.some.inj h]

theorem lengthAllocated_writeBytes {input : List UInt8} (h : q.writeBytes input = some q')
    (hgrow : q.NeedsToGrow input.length) :
    q'.lengthAllocated = wrap (q.lengthAllocated + q.newAmountToAllocate input.length) := by
  rw [writeBytes, if_pos hgrow] at h
  obtain ⟨grown, hgrown, hput⟩ := Option.bind_eq_some_iff.mp h
  rw [lengthAllocated_put hput, lengthAllocated_grow hgrown]

theorem Holds.grown (h : Holds fifo q) {input : List UInt8}
    (htotal : fifo.written + input.length < 2 ^ 31) (hgrow : q.NeedsToGrow input.length)
    (hfits : q.lengthAllocated + max 256 (input.length + q.lengthAllocated + 1) < 4294967296) :
    ∃ q', q.step (.writeBytes input) = some q' ∧ Holds (fifo.step (.writeBytes input)) q' ∧
      q'.lengthAllocated = q.lengthAllocated + max 256 (input.length + q.lengthAllocated + 1) ∧
        q'.getBytesWritten = fifo.unread.length + input.length := by
  have hallowed : fifo.Allowed (.writeBytes input) := htotal
  obtain ⟨q', hq', hholds⟩ := h.step hallowed fun _ => hfits
  refine ⟨q', hq', hholds, ?_, ?_⟩
  · have hamount : wrap (input.length + q.lengthAllocated + 1) =
        input.length + q.lengthAllocated + 1 := wrap_eq (by omega)
    rw [lengthAllocated_writeBytes hq' hgrow, newAmountToAllocate, hamount, wrap_eq hfits]
  · rw [hholds.shown.getBytesWritten]
    exact List.length_append

/-- The first two writes leave 1717986918 bytes allocated, and the third one needs `2 ^ 32 + 1`. -/
theorem not_isFifo_third {first second third : List UInt8} (hfirst : first.length = 858993457)
    (hsecond : second.length = 1) (hthird : third.length = 858993460) :
    ByteFifo.AllAllowed [.writeBytes first, .writeBytes second, .writeBytes third] ∧
      ¬ IsFifo [.writeBytes first, .writeBytes second, .writeBytes third] := by
  have hwritten : 0 + first.length < 2 ^ 31 := by omega
  have hwritten' : 0 + first.length + second.length < 2 ^ 31 := by omega
  have hwritten'' : 0 + first.length + second.length + third.length < 2 ^ 31 := by omega
  refine ⟨Transition.along_cons hwritten (Transition.along_cons hwritten'
    (Transition.along_cons hwritten'' Transition.along_nil)), fun hfifo => ?_⟩
  obtain ⟨q₁, hq₁, hholds₁, hsize₁, hbytes₁⟩ := holds_empty.grown hwritten (.inl rfl) (by
    rw [hfirst]
    decide)
  have hsize₁ : q₁.lengthAllocated = 858993458 := by
    rw [hsize₁, hfirst]
    rfl
  have hbytes₁ : q₁.getBytesWritten = 858993457 := by
    rw [hbytes₁, hfirst]
    rfl
  obtain ⟨q₂, hq₂, hholds₂, hsize₂, hbytes₂⟩ := hholds₁.grown hwritten'
    (by rw [NeedsToGrow, hsize₁, hbytes₁, hsecond]; decide) (by rw [hsize₁, hsecond]; decide)
  have hsize₂ : q₂.lengthAllocated = 1717986918 := by
    rw [hsize₂, hsize₁, hsecond]
    rfl
  have hbytes₂ : q₂.getBytesWritten = 858993458 := by
    have hunread : ([] ++ first).length = 858993457 := hfirst
    rw [hbytes₂, hsecond]
    exact congrArg (· + 1) hunread
  have hover : ¬ q₂.Fitting (.writeBytes third) := by
    intro hfits
    have hfits := hfits (by rw [NeedsToGrow, hsize₂, hbytes₂, hthird]; decide)
    rw [hsize₂, hthird] at hfits
    exact absurd hfits (by decide)
  have hallowed : (((ByteFifo.run []).step (.writeBytes first)).step (.writeBytes second)).Allowed
      (.writeBytes third) := hwritten''
  refine hholds₂.not_fitting hallowed hover ?_
  obtain ⟨q₃, hq₃, hshown⟩ := hfifo _ (List.prefix_refl _)
  refine ⟨q₃, ?_, hshown⟩
  rw [← hq₃, run, List.foldl_cons, next, Option.bind_some, hq₁, List.foldl_cons, next,
    Option.bind_some, hq₂]
  rfl

theorem growth_wraps :
    ByteFifo.AllAllowed [.writeBytes (List.replicate 858993457 0),
        .writeBytes (List.replicate 1 0), .writeBytes (List.replicate 858993460 0)] ∧
      ¬ IsFifo [.writeBytes (List.replicate 858993457 0), .writeBytes (List.replicate 1 0),
        .writeBytes (List.replicate 858993460 0)] :=
  not_isFifo_third List.length_replicate List.length_replicate List.length_replicate

end ByteQueue

end SLikeNet
