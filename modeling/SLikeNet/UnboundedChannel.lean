import Mathlib.Data.Nat.Init
import SLikeNet.ConformingSender
import SLikeNet.OrderingChannel

/-! The ordering channel with unbounded numbers in place of 24-bit indices, and
the arrivals for which the indices cannot be told from the numbers. -/

namespace SLikeNet

structure UnboundedChannel where
  next : ℕ
  highest : ℕ
  base : ℕ
  heap : Heap ℕ SentMessage false
  base_le : base ≤ next

namespace UnboundedChannel

def initial : UnboundedChannel := ⟨0, 0, 0, Heap.empty, Nat.le_refl 0⟩

def heapWeight (u : UnboundedChannel) (m : SentMessage) : ℕ :=
  (m.order - u.base) * 1048576 + if m.isSequenced then m.sequence else 1048576 - 1

def returnOffHeap : ℕ → UnboundedChannel → List SentMessage × UnboundedChannel
  | 0, u => ([], u)
  | fuel + 1, u =>
    match u.heap.peek, u.heap.pop 0 with
    | some head, some (m, heap) =>
      if head.order = u.next then
        let u' :=
          if m.isSequenced then { u with heap := heap, highest := m.sequence }
          else { u with heap := heap, next := u.next + 1, base_le := Nat.le_succ_of_le u.base_le }
        let (ms, u'') := returnOffHeap fuel u'
        (m :: ms, u'')
      else ([], u)
    | _, _ => ([], u)

/-- The channel about to buffer a message. -/
def rebase (u : UnboundedChannel) : UnboundedChannel :=
  if u.heap.size = 0 then { u with base := u.next, base_le := Nat.le_refl _ } else u

/-- The channel that has returned the ordered message it waited for. -/
def advance (u : UnboundedChannel) : UnboundedChannel :=
  { u with next := u.next + 1, highest := 0, base_le := Nat.le_succ_of_le u.base_le }

def handle (u : UnboundedChannel) (m : SentMessage) : Disposition SentMessage × UnboundedChannel :=
  if m.order = u.next then
    if m.isSequenced then
      if m.sequence < u.highest then (.lateSequenced, u)
      else (.returned [m], { u with highest := m.sequence + 1 })
    else
      let (ms, u') := returnOffHeap u.advance.heap.size u.advance
      (.returned (m :: ms), u')
  else if m.order < u.next then (.olderResend, u)
  else (.buffered, { u.rebase with heap := u.rebase.heap.push (u.rebase.heapWeight m) m })

/-- The buffered messages, in the order in which they come off the heap. -/
def pending (u : UnboundedChannel) : List SentMessage := u.heap.drain.map HeapNode.data

/-- The sequence number that stands after the messages `ms` have come off the heap. -/
def lastSequence (s : ℕ) (ms : List SentMessage) : ℕ :=
  ms.foldl (fun s m => if m.isSequenced then m.sequence else s) s

/-- The channel of the source that holds these numbers modulo `2 ^ 24`. -/
def toChannel (u : UnboundedChannel) : OrderingChannel SentMessage :=
  ⟨.ofNat u.next, .ofNat u.highest, u.heap, .ofNat u.base⟩

end UnboundedChannel

/-- Every ordered message from `n` up to `r` is among the given ones. -/
def Filled (ms : List SentMessage) (n r : ℕ) : Prop :=
  ∀ i, n ≤ i → i < r → ∃ m ∈ ms, m.isSequenced = false ∧ m.order = i

instance (ms : List SentMessage) (n r : ℕ) : Decidable (Filled ms n r) :=
  inferInstanceAs (Decidable (∀ i, n ≤ i → i < r → _))

/-- The comparisons of 24-bit indices that handling `m` makes agree with the numbers,
and the heap weight of `m` holds its numbers. -/
structure Faithful (u : UnboundedChannel) (m : SentMessage) : Prop where
  index : m.header.orderingIndex = .ofNat u.next → m.order = u.next
  older : m.order ≠ u.next →
    (isOlderOrderedPacket m.header.orderingIndex (.ofNat u.next) = true ↔ m.order < u.next)
  late : m.order = u.next → m.isSequenced = true →
    (isOlderOrderedPacket m.header.sequencingIndex (.ofNat u.highest) = true ↔
      m.sequence < u.highest)
  hole : u.next < m.order → m.order < u.rebase.base + 2 ^ 24
  sequence : u.next < m.order → m.isSequenced = true → m.sequence < 2 ^ 24
  head : m.order = u.next → m.isSequenced = false → ∀ r, u.next < r →
    Filled u.pending (u.next + 1) r → ∀ q ∈ u.pending, q.header.orderingIndex = .ofNat r →
      q.order = r

namespace UnboundedChannel

theorem lastSequence_cases (s : ℕ) (ms : List SentMessage) :
    (lastSequence s ms = s ∧ ∀ m ∈ ms, m.isSequenced = false) ∨
    ∃ l q l', ms = l ++ q :: l' ∧ q.isSequenced = true ∧ lastSequence s ms = q.sequence ∧
      ∀ m ∈ l', m.isSequenced = false := by
  induction ms generalizing s with
  | nil => exact .inl ⟨rfl, by simp⟩
  | cons m ms ih =>
    cases hm : m.isSequenced
    · have hstep : lastSequence s (m :: ms) = lastSequence s ms := by simp [lastSequence, hm]
      rcases ih s with ⟨h, hms⟩ | ⟨l, q, l', rfl, hq⟩
      · exact .inl ⟨hstep.trans h, by simpa [hm] using hms⟩
      · rw [hstep]
        exact .inr ⟨m :: l, q, l', rfl, hq⟩
    · have hstep : lastSequence s (m :: ms) = lastSequence m.sequence ms := by
        simp [lastSequence, hm]
      rw [hstep]
      rcases ih m.sequence with ⟨h, hms⟩ | ⟨l, q, l', rfl, hq⟩
      · exact .inr ⟨[], m, ms, rfl, hm, h, hms⟩
      · exact .inr ⟨m :: l, q, l', rfl, hq⟩

theorem pending_perm (u : UnboundedChannel) :
    u.pending.Perm (u.heap.heap.map HeapNode.data) := (Heap.drain_perm u.heap).map _

theorem initial_pending : initial.pending = [] := rfl

theorem pending_of_head {u : UnboundedChannel} {n : HeapNode ℕ SentMessage}
    (hn : u.heap.heap.head? = some n) :
    ∃ h, u.heap.pop 0 = some (n.data, h) ∧ u.heap.size = h.size + 1 ∧
      u.pending = n.data :: h.drain.map HeapNode.data := by
  obtain ⟨h, hpop, hdrain, hsize, -⟩ := Heap.drain_eq_cons hn
  exact ⟨h, hpop, hsize, by simp [pending, hdrain]⟩

/-- `Return off heap` takes the longest run of numbers that fit off the pending messages. -/
theorem returnOffHeap_eq (u : UnboundedChannel) :
    let r := ReorderBuffer.release SentMessage.order SentMessage.rank u.next u.pending
    let v := returnOffHeap u.heap.size u
    v.1 = r.out ∧ v.2.next = r.next ∧ v.2.pending = r.rest ∧ v.2.base = u.base ∧
      v.2.highest = lastSequence u.highest r.out := by
  obtain ⟨fuel, hfuel⟩ : ∃ fuel, u.heap.size = fuel := ⟨_, rfl⟩
  induction fuel generalizing u with
  | zero =>
    have hnil : u.heap.heap = [] := List.length_eq_zero_iff.mp hfuel
    have hp : u.pending = [] := by simp [pending, Heap.drain_eq_nil, hnil]
    simp [hfuel, returnOffHeap, hp, ReorderBuffer.release, lastSequence]
  | succ fuel ih =>
    obtain ⟨n, hn⟩ : ∃ n, u.heap.heap.head? = some n :=
      Option.isSome_iff_exists.mp (by
        rw [List.isSome_head?]
        exact List.ne_nil_of_length_eq_add_one hfuel)
    obtain ⟨h, hpop, hsize, hp⟩ := pending_of_head hn
    have hpeek : u.heap.peek = some n.data := by simp [Heap.peek, hn]
    have hh : h.size = fuel := by omega
    dsimp only
    rw [hp]
    by_cases ho : n.data.order = u.next
    · cases hs : n.data.isSequenced
      · have htop : n.data.rank = ⊤ := SentMessage.rank_eq_top.mpr hs
        obtain ⟨h1, h2, h3, h4, h5⟩ := ih { u with
          heap := h, next := u.next + 1, base_le := Nat.le_succ_of_le u.base_le } hh
        rw [hh] at h1 h2 h3 h4 h5
        simp only [hfuel, returnOffHeap, hpeek, hpop, ho, hs, ReorderBuffer.release, htop,
          if_true, if_false, Bool.false_eq_true, lastSequence, List.foldl_cons]
        exact ⟨congrArg _ h1, h2, h3, h4, h5⟩
      · have htop : n.data.rank ≠ ⊤ := fun h => by simp [SentMessage.rank_eq_top.mp h] at hs
        obtain ⟨h1, h2, h3, h4, h5⟩ := ih { u with heap := h, highest := n.data.sequence } hh
        rw [hh] at h1 h2 h3 h4 h5
        simp only [hfuel, returnOffHeap, hpeek, hpop, ho, hs, ReorderBuffer.release, htop,
          if_true, if_false, lastSequence, List.foldl_cons]
        exact ⟨congrArg _ h1, h2, h3, h4, h5⟩
    · simp [hfuel, returnOffHeap, hpeek, hpop, ho, hp, ReorderBuffer.release, lastSequence]

variable {u : UnboundedChannel} {m : SentMessage}

theorem heapWeight_toChannel (hb : u.base ≤ m.order) (ho : m.order < u.base + 2 ^ 24)
    (hs : m.isSequenced = true → m.sequence < 2 ^ 24) :
    u.toChannel.heapWeight m = u.heapWeight m := by
  have hval : (m.header.orderingIndex - .ofNat u.base).val = m.order - u.base := by
    rw [m.orderingIndex_eq]
    exact Uint24.val_ofNat_sub_ofNat hb ho
  simp only [OrderingChannel.heapWeight, toChannel, header, hval, heapWeight]
  congr 1
  cases hseq : m.isSequenced
  · have hseq' : m.header.reliability.isSequenced = false := hseq
    simp [hseq']
  · have hseq' : m.header.reliability.isSequenced = true := hseq
    simpa [hseq', m.sequencingIndex_eq hseq] using hs hseq

theorem returnOffHeap_toChannel {fuel : ℕ}
    (hq : ∀ r, u.next ≤ r → Filled u.pending u.next r → ∀ q ∈ u.pending,
      q.header.orderingIndex = .ofNat r → q.order = r) :
    u.toChannel.returnOffHeap fuel =
      ((u.returnOffHeap fuel).1, (u.returnOffHeap fuel).2.toChannel) := by
  induction fuel generalizing u with
  | zero => rfl
  | succ fuel ih =>
    cases hn : u.heap.heap.head? with
    | none => simp [OrderingChannel.returnOffHeap, returnOffHeap, toChannel, Heap.peek, hn]
    | some n =>
      obtain ⟨rest, hpop, -, hp⟩ := pending_of_head hn
      have hpeek : u.heap.peek = some n.data := by simp [Heap.peek, hn]
      have hmem : n.data ∈ u.pending := by simp [hp]
      have hrest : ∀ q ∈ rest.drain.map HeapNode.data, q ∈ u.pending := fun q hq => by
        rw [hp]
        exact List.mem_cons_of_mem _ hq
      have hindex : n.data.header.orderingIndex = .ofNat u.next ↔ n.data.order = u.next :=
        ⟨hq u.next (Nat.le_refl _) (fun i h1 h2 => by omega) _ hmem,
          fun ho => by rw [n.data.orderingIndex_eq, ho]⟩
      by_cases ho : n.data.order = u.next
      · cases hs : n.data.isSequenced
        · have hr := SentMessage.isSequenced_eq_false.mp hs
          have := ih (u := { u with
              heap := rest, next := u.next + 1, base_le := Nat.le_succ_of_le u.base_le })
            fun r hr hf q hmq => by
              refine hq r (Nat.le_of_succ_le hr) (fun i h1 h2 => ?_) q (hrest q hmq)
              rcases Nat.eq_or_lt_of_le h1 with rfl | h1
              · exact ⟨n.data, hmem, hs, ho⟩
              · obtain ⟨m, hm, hm'⟩ := hf i h1 h2
                exact ⟨m, hrest m hm, hm'⟩
          simp only [toChannel] at this
          simp [OrderingChannel.returnOffHeap, returnOffHeap, toChannel, header, hpeek, hpop,
            hindex, ho, hr, hs, this]
        · have hr : ¬ n.data.header.reliability = .reliableOrdered := by
            rw [← SentMessage.isSequenced_eq_false]
            simp [hs]
          have := ih (u := { u with heap := rest, highest := n.data.sequence })
            fun r hr hf q hmq => by
              refine hq r hr (fun i h1 h2 => ?_) q (hrest q hmq)
              obtain ⟨m, hm, hm'⟩ := hf i h1 h2
              exact ⟨m, hrest m hm, hm'⟩
          simp only [toChannel] at this
          simp [OrderingChannel.returnOffHeap, returnOffHeap, toChannel, header, hpeek, hpop,
            hindex, ho, hr, hs, n.data.sequencingIndex_eq hs, this]
      · simp [OrderingChannel.returnOffHeap, returnOffHeap, toChannel, header, hpeek, hpop,
          hindex, ho]

theorem rebase_toChannel (u : UnboundedChannel) :
    u.rebase.toChannel = if u.heap.size = 0 then
      { u.toChannel with heapIndexOffset := .ofNat u.next } else u.toChannel := by
  unfold rebase
  split <;> rfl

@[simp] theorem rebase_next (u : UnboundedChannel) : u.rebase.next = u.next := by
  unfold rebase
  split <;> rfl

@[simp] theorem rebase_heap (u : UnboundedChannel) : u.rebase.heap = u.heap := by
  unfold rebase
  split <;> rfl

theorem handle_toChannel (hf : Faithful u m) :
    u.toChannel.handle m = ((u.handle m).1, (u.handle m).2.toChannel) := by
  have hrel : (header m).reliability = .reliableSequenced ∨
      (header m).reliability = .unreliableSequenced ∨
      (header m).reliability = .reliableOrdered := m.reliability_eq
  have hindex : m.header.orderingIndex = .ofNat u.next ↔ m.order = u.next :=
    ⟨hf.index, fun ho => by rw [m.orderingIndex_eq, ho]⟩
  have hn : u.toChannel.orderedReadIndex = .ofNat u.next := rfl
  rw [OrderingChannel.handle, if_pos hrel]
  simp only [header, hn, hindex]
  by_cases ho : m.order = u.next
  · cases hs : m.isSequenced
    · have hs' : m.header.reliability.isSequenced = false := hs
      have := @returnOffHeap_toChannel u.advance u.heap.size
        fun r hr hfill q hq => hf.head ho hs r hr hfill q hq
      have hadv : { u.toChannel with
          orderedReadIndex := u.toChannel.orderedReadIndex.succ
          highestSequencedReadIndex := 0 } = u.advance.toChannel := by
        simp [toChannel, advance]
        rfl
      simp only [if_pos ho, hs', Bool.false_eq_true, if_false, ← hn, hadv]
      simp only [handle, if_pos ho, hs, Bool.false_eq_true, if_false]
      exact congrArg (fun r => (Disposition.returned (m :: r.1), r.2)) this
    · have hs' : m.header.reliability.isSequenced = true := hs
      have hlate := hf.late ho hs
      by_cases hlt : m.sequence < u.highest
      · simp [handle, toChannel, ho, hs, hs', hlt, hlate.mpr hlt]
      · have : isOlderOrderedPacket m.header.sequencingIndex (.ofNat u.highest) = false := by
          simpa using mt hlate.mp hlt
        have hnext : m.header.sequencingIndex + 1 = .ofNat (m.sequence + 1) := by
          rw [m.sequencingIndex_eq hs]
          exact Uint24.ofNat_add_ofNat _ _
        simp [handle, toChannel, ho, hs, hs', hlt, this, hnext]
  · by_cases hlt : m.order < u.next
    · simp [handle, ho, hlt, (hf.older ho).mpr hlt]
    · have hgt : u.next < m.order := by omega
      have hold : isOlderOrderedPacket m.header.orderingIndex (.ofNat u.next) = false := by
        simpa using mt (hf.older ho).mp hlt
      have hb := u.rebase.base_le
      have hw := heapWeight_toChannel (u := u.rebase) (by simp at hb; omega) (hf.hole hgt)
        (hf.sequence hgt)
      have hsize : u.toChannel.orderingHeap.size = u.heap.size := rfl
      rw [if_neg ho, hold, if_pos rfl, ← hn, hsize]
      simp only [handle, if_neg ho, if_neg hlt]
      rw [show (if u.heap.size = 0 then
          { u.toChannel with heapIndexOffset := u.toChannel.orderedReadIndex } else u.toChannel) =
        u.rebase.toChannel from (rebase_toChannel u).symm, hw]
      rfl

/-- The heap is ordered by weights that count from the base. -/
structure WellWeighted (u : UnboundedChannel) : Prop where
  ordered : u.heap.Ordered
  weight : ∀ n ∈ u.heap.heap, n.weight = u.heapWeight n.data
  base_le : ∀ n ∈ u.heap.heap, u.base ≤ n.data.order

theorem initial_wellWeighted : initial.WellWeighted :=
  ⟨HeapOrder.Ordered.nil, by simp [initial, Heap.empty], by simp [initial, Heap.empty]⟩

theorem WellWeighted.pending_sorted (h : u.WellWeighted) :
    u.pending.Pairwise fun a b => u.heapWeight a ≤ u.heapWeight b := by
  refine List.pairwise_map.mpr (h.ordered.drain_sorted.imp_of_mem fun {a b} ha hb hab => ?_)
  rw [← h.weight a ((Heap.drain_perm _).mem_iff.mp ha), ← h.weight b ((Heap.drain_perm _).mem_iff.mp hb)]
  simpa [Heap.nodeLe, Heap.before] using hab

theorem WellWeighted.base_le_of_pending (h : u.WellWeighted) (hm : m ∈ u.pending) :
    u.base ≤ m.order := by
  obtain ⟨n, hn, rfl⟩ := List.mem_map.mp hm
  exact h.base_le n ((Heap.drain_perm _).mem_iff.mp hn)

theorem WellWeighted.returnOffHeap (h : u.WellWeighted) (fuel : ℕ) :
    (u.returnOffHeap fuel).2.WellWeighted := by
  induction fuel generalizing u with
  | zero => exact h
  | succ fuel ih =>
    simp only [UnboundedChannel.returnOffHeap]
    cases hn : u.heap.heap.head? with
    | none => simpa [Heap.peek, hn] using h
    | some n =>
      obtain ⟨rest, hpop, hperm, -, ho⟩ := Heap.pop_eq hn
      have hmem : ∀ k ∈ rest.heap, k ∈ u.heap.heap := fun k hk =>
        hperm.mem_iff.mpr (List.mem_cons_of_mem _ hk)
      simp only [Heap.peek, hn, Option.map_some, hpop]
      split
      · refine ih ?_
        split
        · exact ⟨ho h.ordered, fun k hk => h.weight k (hmem k hk), fun k hk => h.base_le k (hmem k hk)⟩
        · exact ⟨ho h.ordered, fun k hk => h.weight k (hmem k hk), fun k hk => h.base_le k (hmem k hk)⟩
      · exact h

theorem WellWeighted.rebase (h : u.WellWeighted) : u.rebase.WellWeighted := by
  unfold UnboundedChannel.rebase
  split
  · rename_i hsize
    have hnil : u.heap.heap = [] := List.length_eq_zero_iff.mp hsize
    exact ⟨h.ordered, by simp [hnil], by simp [hnil]⟩
  · exact h

theorem WellWeighted.handle (h : u.WellWeighted) (m : SentMessage) : (u.handle m).2.WellWeighted := by
  simp only [UnboundedChannel.handle]
  split
  · split
    · split
      · exact h
      · exact ⟨h.ordered, h.weight, h.base_le⟩
    · exact WellWeighted.returnOffHeap (u := u.advance) ⟨h.ordered, h.weight, h.base_le⟩ _
  · split
    · exact h
    · have hr := h.rebase
      have hb := u.rebase.base_le
      rw [rebase_next] at hb
      refine ⟨hr.ordered.push _ _, fun n hn => ?_, fun n hn => ?_⟩ <;>
        rcases List.mem_cons.mp ((Heap.push_perm _ _ _).mem_iff.mp hn) with rfl | hn
      · rfl
      · exact hr.weight n hn
      · dsimp only
        omega
      · exact hr.base_le n hn

/-- As long as sequence numbers stay below the weight of an ordered message, the heap
returns distinct messages in their order. -/
theorem WellWeighted.sorted (h : u.WellWeighted)
    (hfit : ∀ m ∈ u.pending, m.isSequenced = true → m.sequence < 1048576 - 1)
    (hdistinct : u.pending.Pairwise fun a b => ¬ (a.order = b.order ∧ a.rank = b.rank)) :
    ReorderBuffer.Sorted SentMessage.order SentMessage.rank u.pending := by
  refine (h.pending_sorted.and hdistinct).imp_of_mem fun {a b} ha hb hab => ?_
  obtain ⟨hw, hne⟩ := hab
  have hab' := h.base_le_of_pending ha
  have hbb := h.base_le_of_pending hb
  have hfa := hfit a ha
  have hfb := hfit b hb
  unfold heapWeight at hw
  unfold SentMessage.rank at hne
  unfold ReorderBuffer.Precedes SentMessage.rank
  cases hsa : a.isSequenced <;> cases hsb : b.isSequenced <;>
    simp only [hsa, hsb, if_true, if_false, Bool.false_eq_true, forall_const, false_implies,
      and_true, WithTop.coe_inj, WithTop.coe_lt_coe, lt_self_iff_false, and_false, or_false,
      WithTop.coe_lt_top, not_top_lt] at hw hne hfa hfb ⊢ <;> omega

/-! What handling a message does to the pending ones. -/

theorem handle_late (ho : m.order = u.next) (hs : m.isSequenced = true)
    (hlt : m.sequence < u.highest) : u.handle m = (.lateSequenced, u) := by
  simp [handle, ho, hs, hlt]

theorem handle_sequenced (ho : m.order = u.next) (hs : m.isSequenced = true)
    (hge : u.highest ≤ m.sequence) :
    u.handle m = (.returned [m], { u with highest := m.sequence + 1 }) := by
  simp [handle, ho, hs, Nat.not_lt.mpr hge]

/-- The ordered message that the channel waits for comes with `out` behind it. -/
structure OrderedReturn (u : UnboundedChannel) (m : SentMessage) (out : List SentMessage) :
    Prop where
  disposition : (u.handle m).1 = .returned (m :: out)
  append : out ++ (u.handle m).2.pending = u.pending
  highest : (u.handle m).2.highest = lastSequence 0 out
  next_lt : u.next < (u.handle m).2.next
  numbers : ∀ q ∈ out, u.next < q.order ∧ q.order ≤ (u.handle m).2.next
  numbers_sorted : out.Pairwise fun a b => a.order ≤ b.order
  ordered : (out.filter fun q => !q.isSequenced).map SentMessage.order =
    List.range' (u.next + 1) ((u.handle m).2.next - (u.next + 1))

theorem handle_ordered_eq (ho : m.order = u.next) (hs : m.isSequenced = false) :
    let r := ReorderBuffer.release SentMessage.order SentMessage.rank (u.next + 1) u.pending
    (u.handle m).1 = .returned (m :: r.out) ∧ (u.handle m).2.next = r.next ∧
      (u.handle m).2.pending = r.rest ∧ (u.handle m).2.highest = lastSequence 0 r.out := by
  obtain ⟨h1, h2, h3, -, h5⟩ := returnOffHeap_eq u.advance
  have hp : u.advance.pending = u.pending := rfl
  have hn : u.advance.next = u.next + 1 := rfl
  rw [hp, hn] at h1 h2 h3 h5
  simp only [handle, ho, hs, if_true, if_false, Bool.false_eq_true]
  exact ⟨by rw [h1], h2, h3, h5⟩

theorem handle_ordered (ho : m.order = u.next) (hs : m.isSequenced = false) :
    ∃ out, OrderedReturn u m out := by
  obtain ⟨h1, h2, h3, h4⟩ := handle_ordered_eq ho hs
  refine ⟨_, h1, ?_, h4, ?_, fun q hq => ?_, ReorderBuffer.out_numbers_sorted _ _, ?_⟩
  · rw [h3]
    exact ReorderBuffer.release_append _ _
  · rw [h2]
    exact ReorderBuffer.le_release_next _ _
  · rw [h2]
    exact ReorderBuffer.number_le_of_mem_out hq
  · rw [h2, ← ReorderBuffer.release_closing]
    refine congrArg _ (List.filter_congr fun q _ => ?_)
    cases hqs : q.isSequenced <;> simp [SentMessage.rank_eq_top, hqs]

theorem handle_ordered_beyond
    (hsorted : ReorderBuffer.Sorted SentMessage.order SentMessage.rank u.pending)
    (hbeyond : ∀ q ∈ u.pending, u.next < q.order) (ho : m.order = u.next)
    (hs : m.isSequenced = false) :
    ∀ q ∈ (u.handle m).2.pending, (u.handle m).2.next < q.order := by
  obtain ⟨-, h2, h3, -⟩ := handle_ordered_eq ho hs
  rw [h2, h3]
  exact hsorted.lt_of_mem_rest hbeyond

theorem handle_older (hlt : m.order < u.next) : u.handle m = (.olderResend, u) := by
  simp [handle, hlt, Nat.ne_of_lt hlt]

theorem handle_buffered (hgt : u.next < m.order) :
    (u.handle m).1 = .buffered ∧ (u.handle m).2.next = u.next ∧
      (u.handle m).2.highest = u.highest ∧ (u.handle m).2.pending.Perm (m :: u.pending) := by
  have h1 : m.order ≠ u.next := by omega
  have h2 : ¬ m.order < u.next := by omega
  have hh : u.rebase.highest = u.highest := by
    unfold rebase
    split <;> rfl
  simp only [handle, if_neg h1, if_neg h2, rebase_heap, rebase_next, hh, true_and]
  refine (pending_perm _).trans ?_
  refine ((Heap.push_perm _ _ _).map _).trans ?_
  exact (pending_perm u).symm.cons m

end UnboundedChannel

end SLikeNet
