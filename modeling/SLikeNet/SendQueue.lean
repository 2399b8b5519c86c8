import SLikeNet.UpdateInternal
import SLikeNet.Library.Transition

/-! The send queue: the heap of `outgoingPacketBuffer` with the weights that `GetNextWeight`
gives to the messages. -/

namespace SLikeNet

namespace PacketPriority

/-- How far `GetNextWeight` advances the next weight of a level. -/
def increment (priority : PacketPriority) : ℕ :=
  2 ^ priority.level * (priority.level + 1) + priority.level

theorem level_bounds (priority : PacketPriority) :
    priority.level ≤ 2 ^ priority.level * priority.level ∧
      2 ^ priority.level * priority.level + priority.level ≤ 27 ∧
      1 ≤ priority.increment ∧ priority.increment ≤ 35 ∧
      2 ^ priority.level * priority.level < priority.level + priority.increment := by
  cases priority <;> decide

end PacketPriority

open ReliabilityLayer (initHeapWeight initHeapWeights)

/-- A message in the queue: its priority, and how many were pushed before it. -/
structure QueuedMessage where
  priority : PacketPriority
  number : ℕ
deriving DecidableEq

abbrev QueueNode := HeapNode ℕ QueuedMessage

/-- `GetNextWeight` on a heap of any messages, with the array it leaves behind. -/
def nextWeight {α : Type*} (priorityOf : α → PacketPriority) (queue : Heap ℕ α false)
    (weights : PacketPriority → ℕ) (priority : PacketPriority) : ℕ × (PacketPriority → ℕ) :=
  let next := weights priority
  match queue.peek, queue.peekWeight with
  | some p, some weight =>
    let peekPL := (priorityOf p).level
    let min := (2 ^ 64 - 2 ^ peekPL * peekPL + weight + peekPL) % 2 ^ 64
    let next :=
      if next < min then (min + initHeapWeight priority.level) % 2 ^ 64 else next
    (next, Function.update weights priority
      ((next + 2 ^ priority.level * (priority.level + 1) + priority.level) % 2 ^ 64))
  | _, _ => (next, initHeapWeights)

theorem getNextWeight_eq (s : ReliabilityLayer) (priority : PacketPriority) :
    s.getNextWeight priority =
      nextWeight (fun p => (s.packets p).priority) s.outgoingPacketBuffer
        s.outgoingPacketBufferNextWeights priority := by
  unfold ReliabilityLayer.getNextWeight nextWeight
  cases s.outgoingPacketBuffer.peek <;> cases s.outgoingPacketBuffer.peekWeight <;> rfl

/-- The queue with its weights; `pushed` counts the messages and `popped` records in order
what has left the queue. -/
structure SendQueue where
  outgoingPacketBuffer : Heap ℕ QueuedMessage false
  outgoingPacketBufferNextWeights : PacketPriority → ℕ
  pushed : ℕ
  popped : List QueueNode

inductive QueueInput
  | send (priority : PacketPriority)
  | splitPacket (priority : PacketPriority) (splitPacketCount : ℕ)
  | pop

namespace SendQueue

def initial : SendQueue := ⟨.empty, initHeapWeights, 0, []⟩

def queued (s : SendQueue) : List QueueNode := s.outgoingPacketBuffer.heap

def getNextWeight (s : SendQueue) (priority : PacketPriority) : ℕ × (PacketPriority → ℕ) :=
  nextWeight QueuedMessage.priority s.outgoingPacketBuffer s.outgoingPacketBufferNextWeights
    priority

def pushMessage
    (push : Heap ℕ QueuedMessage false → ℕ → QueuedMessage → Heap ℕ QueuedMessage false)
    (priority : PacketPriority) (s : SendQueue) : SendQueue :=
  let w := s.getNextWeight priority
  { s with
    outgoingPacketBuffer := push s.outgoingPacketBuffer w.1 ⟨priority, s.pushed⟩
    outgoingPacketBufferNextWeights := w.2
    pushed := s.pushed + 1 }

def pushFragments (priority : PacketPriority) : ℕ → SendQueue → SendQueue
  | 0, s => s
  | count + 1, s => pushFragments priority count (s.pushMessage Heap.pushSeries priority)

def startSeries (s : SendQueue) : SendQueue :=
  { s with outgoingPacketBuffer := s.outgoingPacketBuffer.startSeries }

/-- `Pop(0)`, which `UpdateInternal` calls only where the queue is not empty. -/
def pop (s : SendQueue) : SendQueue :=
  match s.outgoingPacketBuffer.heap.head?, s.outgoingPacketBuffer.pop 0 with
  | some n, some (_, outgoingPacketBuffer) =>
    { s with
      outgoingPacketBuffer := outgoingPacketBuffer
      popped := s.popped ++ [n] }
  | _, _ => s

def step (s : SendQueue) : QueueInput → SendQueue
  | .send priority => s.pushMessage Heap.push priority
  | .splitPacket priority count => pushFragments priority count s.startSeries
  | .pop => s.pop

theorem nextWeight_map {α : Type*} (f : α → QueuedMessage) (queue : Heap ℕ α false)
    (weights : PacketPriority → ℕ) (priority : PacketPriority) :
    nextWeight QueuedMessage.priority (queue.map f) weights priority =
      nextWeight (fun a => (f a).priority) queue weights priority := by
  have hpeek : (queue.map f).peek = queue.peek.map f := by
    simp only [Heap.peek, Heap.map, List.head?_map, Option.map_map]
    rfl
  have hweight : (queue.map f).peekWeight = queue.peekWeight := by
    simp only [Heap.peekWeight, Heap.map, List.head?_map, Option.map_map]
    rfl
  rw [nextWeight, nextWeight, hpeek, hweight]
  cases queue.peek <;> cases queue.peekWeight <;> rfl

end SendQueue

/-- The send queue of a layer. A message is numbered by its packet, which the pool hands out in
the order of the pushes. -/
def ReliabilityLayer.sendQueue (s : ReliabilityLayer) (pushed : ℕ) (popped : List QueueNode) :
    SendQueue where
  outgoingPacketBuffer := s.outgoingPacketBuffer.map fun p => ⟨(s.packets p).priority, p⟩
  outgoingPacketBufferNextWeights := s.outgoingPacketBufferNextWeights
  pushed := pushed
  popped := popped

/-- `Send` and `SplitPacket` push as the queue does, with either way of pushing. -/
theorem ReliabilityLayer.sendQueue_pushOutgoing
    {push : Heap ℕ PacketPtr false → ℕ → PacketPtr → Heap ℕ PacketPtr false}
    {push' : Heap ℕ QueuedMessage false → ℕ → QueuedMessage → Heap ℕ QueuedMessage false}
    (hpush : ∀ f h weight p, push' (h.map f) weight (f p) = (push h weight p).map f)
    (s : ReliabilityLayer) (p : PacketPtr) (popped : List QueueNode) :
    (s.pushOutgoing push p).sendQueue (p + 1) popped =
      (s.sendQueue p popped).pushMessage push' (s.packets p).priority := by
  have hweight : (s.sendQueue p popped).getNextWeight (s.packets p).priority =
      s.getNextWeight (s.packets p).priority := by
    rw [getNextWeight_eq]
    exact SendQueue.nextWeight_map _ _ _ _
  have hsame : (s.addToUnreliableLinkedList p).packets = s.packets ∧
      (s.addToUnreliableLinkedList p).outgoingPacketBuffer = s.outgoingPacketBuffer ∧
      (s.addToUnreliableLinkedList p).outgoingPacketBufferNextWeights =
        s.outgoingPacketBufferNextWeights := by
    unfold addToUnreliableLinkedList
    split <;> exact ⟨rfl, rfl, rfl⟩
  obtain ⟨hpackets, hqueue, hweights⟩ := hsame
  rw [SendQueue.pushMessage, hweight]
  unfold pushOutgoing
  dsimp only
  rw [getNextWeight_eq, getNextWeight_eq, hpackets, hqueue, hweights]
  unfold sendQueue
  dsimp only
  rw [← hpush]

theorem ReliabilityLayer.sendQueue_popOutgoing {s : ReliabilityLayer} {pushed : ℕ}
    {popped : List QueueNode} {n : QueueNode}
    (hn : (s.sendQueue pushed popped).queued.head? = some n) :
    s.popOutgoing.sendQueue pushed (popped ++ [n]) = (s.sendQueue pushed popped).pop := by
  replace hn : (s.outgoingPacketBuffer.map fun p =>
      (⟨(s.packets p).priority, p⟩ : QueuedMessage)).heap.head? = some n := hn
  have hpop := Heap.pop_map (fun p => (⟨(s.packets p).priority, p⟩ : QueuedMessage))
    s.outgoingPacketBuffer 0
  obtain ⟨h', hsome, -⟩ := Heap.pop_eq hn
  rw [hsome] at hpop
  obtain ⟨r, hr, -⟩ := Option.map_eq_some_iff.mp hpop.symm
  rw [hr] at hpop
  unfold popOutgoing SendQueue.pop sendQueue
  dsimp only
  rw [hn, hsome, hpop, hr]
  rfl

namespace SendQueue

/-- No weight wraps while so many messages are pushed: each one adds at most 27 to the head of
the queue and 35 to the weight it takes. -/
structure HasRoom (s : SendQueue) (count : ℕ) : Prop where
  next : ∀ p, s.outgoingPacketBufferNextWeights p + 62 * count < 2 ^ 64
  queued : ∀ n ∈ s.queued, n.weight + 62 * count < 2 ^ 64

/-- Every weight has room for the offset of its level, and a counter that has been advanced is
a whole step above its start. -/
structure Sound (s : SendQueue) : Prop where
  initHeapWeights_le : ∀ n ∈ s.queued, initHeapWeights n.data.priority ≤ n.weight
  counter : ∀ p, s.outgoingPacketBufferNextWeights p = initHeapWeights p ∨
    initHeapWeights p + p.increment ≤ s.outgoingPacketBufferNextWeights p

theorem initial_sound : initial.Sound where
  initHeapWeights_le n hn := by cases hn
  counter p := .inl rfl

theorem Sound.initHeapWeights_le_next {s : SendQueue} (h : s.Sound) (p : PacketPriority) :
    initHeapWeights p ≤ s.outgoingPacketBufferNextWeights p := by
  rcases h.counter p with heq | hle
  · exact Nat.le_of_eq heq.symm
  · exact Nat.le_of_add_right_le hle

theorem HasRoom.mono {s : SendQueue} {count count' : ℕ} (h : s.HasRoom count)
    (hle : count' ≤ count) : s.HasRoom count' := by
  constructor
  · intro p
    have hp := h.next p
    omega
  · intro n hn
    have hn := h.queued n hn
    omega

theorem getNextWeight_nil {s : SendQueue} (hnil : s.queued = []) (p : PacketPriority) :
    s.getNextWeight p = (s.outgoingPacketBufferNextWeights p, initHeapWeights) := by
  have hpeek : s.outgoingPacketBuffer.peek = none := by
    rw [Heap.peek, show s.outgoingPacketBuffer.heap = [] from hnil]
    rfl
  rw [getNextWeight, nextWeight, hpeek]

/-- The weight of a message pushed behind a head: its counter, or where this is behind, the
head's weight less the offset of the head's level. -/
theorem getNextWeight_cons {s : SendQueue} (h : s.Sound) (hroom : s.HasRoom 1) {n : QueueNode}
    (hn : s.queued.head? = some n) (p : PacketPriority) :
    ∃ w, s.getNextWeight p =
        (w, Function.update s.outgoingPacketBufferNextWeights p (w + p.increment)) ∧
      s.outgoingPacketBufferNextWeights p ≤ w ∧
      n.weight + n.data.priority.level ≤
        w + 2 ^ n.data.priority.level * n.data.priority.level ∧
      (w = s.outgoingPacketBufferNextWeights p ∨
        w + 2 ^ n.data.priority.level * n.data.priority.level =
          n.weight + n.data.priority.level + initHeapWeights p) := by
  have hmem : n ∈ s.queued := List.mem_of_head? hn
  have hpeek : s.outgoingPacketBuffer.peek = some n.data := by
    rw [Heap.peek, show s.outgoingPacketBuffer.heap.head? = some n from hn]
    rfl
  have hweight : s.outgoingPacketBuffer.peekWeight = some n.weight := by
    rw [Heap.peekWeight, show s.outgoingPacketBuffer.heap.head? = some n from hn]
    rfl
  have hfit := hroom.queued n hmem
  have hnext := hroom.next p
  have hinit : 2 ^ n.data.priority.level * n.data.priority.level + n.data.priority.level ≤
    n.weight := h.initHeapWeights_le n hmem
  obtain ⟨hlevel, hlevel', -, -, -⟩ := n.data.priority.level_bounds
  obtain ⟨-, hp, -, hincrement, -⟩ := p.level_bounds
  replace hp : initHeapWeights p ≤ 27 := hp
  rw [getNextWeight, nextWeight, hpeek, hweight]
  dsimp only
  have hsub : ∀ next, next + 2 ^ p.level * (p.level + 1) + p.level = next + p.increment :=
    fun next => Nat.add_assoc _ _ _
  rw [show initHeapWeight p.level = initHeapWeights p from rfl]
  simp only [hsub]
  generalize 2 ^ n.data.priority.level * n.data.priority.level = offset at *
  generalize n.data.priority.level = level at *
  generalize initHeapWeights p = start at *
  generalize p.increment = increment at *
  generalize s.outgoingPacketBufferNextWeights p = next at *
  have hmin : (2 ^ 64 - offset + n.weight + level) % 2 ^ 64 = n.weight + level - offset := by omega
  rw [hmin]
  by_cases hlt : next < n.weight + level - offset
  · refine ⟨n.weight + level - offset + start, ?_, by omega, by omega, by omega⟩
    rw [if_pos hlt, Nat.mod_eq_of_lt (by omega), Nat.mod_eq_of_lt (by omega)]
  · refine ⟨next, ?_, Nat.le_refl _, by omega, .inl rfl⟩
    rw [if_neg hlt, Nat.mod_eq_of_lt (by omega)]

theorem next_le_getNextWeight {s : SendQueue} (h : s.Sound) (hroom : s.HasRoom 1)
    (p : PacketPriority) : s.outgoingPacketBufferNextWeights p ≤ (s.getNextWeight p).1 := by
  cases hn : s.queued.head? with
  | none =>
    rw [getNextWeight_nil (List.head?_eq_none_iff.mp hn)]
  | some n =>
    obtain ⟨w, hw, hle, -⟩ := getNextWeight_cons h hroom hn p
    rw [hw]
    exact hle

variable {push : Heap ℕ QueuedMessage false → ℕ → QueuedMessage → Heap ℕ QueuedMessage false}

theorem pushMessage_spec
    (hpush : ∀ h weight data, (push h weight data).heap.Perm (⟨weight, data⟩ :: h.heap))
    {s : SendQueue} (h : s.Sound) {count : ℕ} (hroom : s.HasRoom (count + 1))
    (p : PacketPriority) :
    (s.pushMessage push p).Sound ∧ (s.pushMessage push p).HasRoom count ∧
      (s.pushMessage push p).queued.Perm
        (⟨(s.getNextWeight p).1, ⟨p, s.pushed⟩⟩ :: s.queued) := by
  have hperm : (s.pushMessage push p).queued.Perm
      (⟨(s.getNextWeight p).1, ⟨p, s.pushed⟩⟩ :: s.queued) := hpush _ _ _
  have hnext := next_le_getNextWeight h (hroom.mono (by omega)) p
  have hinit := h.initHeapWeights_le_next p
  have hweights : ∀ n ∈ (s.pushMessage push p).queued,
      n = ⟨(s.getNextWeight p).1, ⟨p, s.pushed⟩⟩ ∨ n ∈ s.queued :=
    fun n hn => List.mem_cons.mp (hperm.mem_iff.mp hn)
  have hnew : (s.pushMessage push p).outgoingPacketBufferNextWeights = (s.getNextWeight p).2 := rfl
  cases hn : s.queued.head? with
  | none =>
    have hw := getNextWeight_nil (List.head?_eq_none_iff.mp hn) p
    rw [hw] at hnew hnext hweights
    refine ⟨⟨?_, ?_⟩, ⟨?_, ?_⟩, hperm⟩
    · intro n hn
      rcases hweights n hn with rfl | hn
      · exact hinit
      · exact h.initHeapWeights_le n hn
    · intro q
      exact .inl (congrFun hnew q)
    · intro q
      rw [hnew]
      dsimp only
      have hq := h.initHeapWeights_le_next q
      have hlt := hroom.next q
      omega
    · intro n hn
      rcases hweights n hn with rfl | hn
      · have hlt := hroom.next p
        dsimp only
        omega
      · have hlt := hroom.queued n hn
        omega
  | some n =>
    obtain ⟨w, hw, hle, -, hcases⟩ := getNextWeight_cons h (hroom.mono (by omega)) hn p
    rw [hw] at hnew hnext hweights
    obtain ⟨-, hstart, -, hincrement, -⟩ := p.level_bounds
    have hstart : initHeapWeights p ≤ 27 := hstart
    have hlevel := n.data.priority.level_bounds.1
    have hlt := hroom.next p
    have hfit := hroom.queued n (List.mem_of_head? hn)
    have hupper : w + 62 * count + 35 < 2 ^ 64 := by omega
    refine ⟨⟨?_, ?_⟩, ⟨?_, ?_⟩, hperm⟩
    · intro n hn
      rcases hweights n hn with rfl | hn
      · exact Nat.le_trans hinit hle
      · exact h.initHeapWeights_le n hn
    · intro q
      rw [hnew]
      dsimp only
      by_cases hq : q = p
      · rw [hq, Function.update_self]
        exact .inr (Nat.add_le_add_right (Nat.le_trans hinit hle) _)
      · rw [Function.update_of_ne hq]
        exact h.counter q
    · intro q
      rw [hnew]
      dsimp only
      by_cases hq : q = p
      · rw [hq, Function.update_self]
        omega
      · rw [Function.update_of_ne hq]
        have hlt := hroom.next q
        omega
    · intro n hn
      rcases hweights n hn with rfl | hn
      · dsimp only
        omega
      · have hlt := hroom.queued n hn
        omega

theorem getNextWeight_le_push
    (hpush : ∀ h weight data, (push h weight data).heap.Perm (⟨weight, data⟩ :: h.heap))
    {s : SendQueue} (h : s.Sound) (hroom : s.HasRoom 2) (p : PacketPriority) :
    (s.getNextWeight p).1 ≤ ((s.pushMessage push p).getNextWeight p).1 := by
  obtain ⟨hsound, hroom', hperm⟩ := pushMessage_spec hpush h hroom p
  cases hn : s.queued.head? with
  | none =>
    -- the counters have been reset, and the message itself is the head
    have hnil := List.head?_eq_none_iff.mp hn
    have hw := getNextWeight_nil hnil p
    rw [hnil, hw] at hperm
    have hhead : (s.pushMessage push p).queued.head? =
        some ⟨s.outgoingPacketBufferNextWeights p, ⟨p, s.pushed⟩⟩ := by
      rw [List.perm_singleton.mp hperm]
      rfl
    obtain ⟨w, hw', -, hmin, hcases⟩ := getNextWeight_cons hsound hroom' hhead p
    have hreset : (s.pushMessage push p).outgoingPacketBufferNextWeights = initHeapWeights :=
      congrArg Prod.snd hw
    rw [hreset] at hcases
    rw [hw, hw']
    dsimp only at hmin hcases ⊢
    have hcounter := h.counter p
    have hstart : initHeapWeights p = 2 ^ p.level * p.level + p.level := rfl
    have hincrement := p.level_bounds
    omega
  | some n =>
    obtain ⟨w, hw, -⟩ := getNextWeight_cons h (hroom.mono (by omega)) hn p
    have hle := next_le_getNextWeight hsound hroom' p
    have hnew : (s.pushMessage push p).outgoingPacketBufferNextWeights p = w + p.increment := by
      show (s.getNextWeight p).2 p = _
      rw [hw]
      exact Function.update_self ..
    rw [hw]
    dsimp only
    omega

theorem before_eq_false {a b : ℕ} : Heap.before false a b = false ↔ b ≤ a := by
  simp [Heap.before]

/-- The array from the parent of its end on is not heavier than the next message of a level. -/
def Ascending (s : SendQueue) (p : PacketPriority) : Prop :=
  s.outgoingPacketBuffer.optimizeNextSeriesPush = true →
    ∀ n ∈ s.queued.drop (Heap.parent s.queued.length), n.weight ≤ (s.getNextWeight p).1

theorem pushSeries_ordered {s : SendQueue} (h : s.Sound) {p : PacketPriority}
    (ho : s.outgoingPacketBuffer.Ordered) (hseries : s.Ascending p) :
    (s.pushMessage Heap.pushSeries p).outgoingPacketBuffer.Ordered ∧
      (s.HasRoom 2 → (s.pushMessage Heap.pushSeries p).Ascending p) := by
  have hbefore : s.outgoingPacketBuffer.optimizeNextSeriesPush = true →
      ∀ n ∈ s.outgoingPacketBuffer.heap.drop (Heap.parent s.outgoingPacketBuffer.size),
        Heap.before false (s.getNextWeight p).1 n.weight = false :=
    fun hflag n hn => before_eq_false.mpr (hseries hflag n hn)
  refine ⟨ho.pushSeries hbefore _, ?_⟩
  intro hroom hflag n hn
  obtain ⟨heq, hle⟩ := Heap.pushSeries_optimized hbefore hflag
  have hmono := getNextWeight_le_push Heap.pushSeries_perm h hroom p
  replace heq : (s.pushMessage Heap.pushSeries p).queued =
      s.queued ++ [⟨(s.getNextWeight p).1, ⟨p, s.pushed⟩⟩] := heq
  have hlen : Heap.parent s.queued.length ≤
      Heap.parent (s.pushMessage Heap.pushSeries p).queued.length := by
    rw [heq, List.length_append]
    unfold Heap.parent
    omega
  have hparent : Heap.parent s.queued.length ≤ s.queued.length := by
    unfold Heap.parent
    omega
  replace hn := List.drop_subset_drop_left _ hlen hn
  rw [heq, List.drop_append_of_le_length hparent] at hn
  rcases List.mem_append.mp hn with hn | hn
  · exact Nat.le_trans (before_eq_false.mp (hle n hn)) hmono
  · rw [List.mem_singleton.mp hn]
    exact hmono

theorem pop_spec {s : SendQueue} {n : QueueNode} (hn : s.queued.head? = some n) :
    s.queued.Perm (n :: s.pop.queued) ∧ s.pop.popped = s.popped ++ [n] ∧
      s.pop.outgoingPacketBufferNextWeights = s.outgoingPacketBufferNextWeights ∧
      s.pop.pushed = s.pushed ∧
      (s.outgoingPacketBuffer.Ordered → s.pop.outgoingPacketBuffer.Ordered) := by
  replace hn : s.outgoingPacketBuffer.heap.head? = some n := hn
  obtain ⟨h', hpop, hperm, -, ho⟩ := Heap.pop_eq hn
  rw [pop, hn, hpop]
  exact ⟨hperm, rfl, rfl, rfl, ho⟩

theorem pop_nil {s : SendQueue} (hn : s.queued.head? = none) : s.pop = s := by
  replace hn : s.outgoingPacketBuffer.heap.head? = none := hn
  rw [pop, hn]

end SendQueue

def QueueInput.pushes : QueueInput → ℕ
  | .send _ => 1
  | .splitPacket _ splitPacketCount => splitPacketCount
  | .pop => 0

namespace SendQueue

/-- The heap is in order, and the weights in it can be rebased. -/
structure WellWeighted (s : SendQueue) : Prop where
  sound : s.Sound
  ordered : s.outgoingPacketBuffer.Ordered

/-- What the single operations of the queue keep, where it is popped in good states only. -/
structure Kept (good inv : SendQueue → Prop) : Prop where
  push : ∀ push, (∀ h weight data, (push h weight data).heap.Perm (⟨weight, data⟩ :: h.heap)) →
    ∀ s p, s.Sound → s.HasRoom 1 → inv s → inv (s.pushMessage push p)
  startSeries : ∀ s : SendQueue, inv s → inv s.startSeries
  pop : ∀ s n, s.WellWeighted → s.queued.head? = some n → good s → inv s → inv s.pop

variable {good inv : SendQueue → Prop}

theorem pushFragments_induction (hkept : Kept good inv) {p : PacketPriority} {count : ℕ}
    {s : SendQueue} (hroom : s.HasRoom count) (hsound : s.Sound)
    (ho : s.outgoingPacketBuffer.Ordered) (hseries : s.Ascending p) (h : inv s) :
    (pushFragments p count s).WellWeighted ∧ inv (pushFragments p count s) := by
  induction count generalizing s with
  | zero => exact ⟨⟨hsound, ho⟩, h⟩
  | succ count ih =>
    obtain ⟨hsound', hroom', -⟩ := pushMessage_spec Heap.pushSeries_perm hsound hroom p
    obtain ⟨ho', hseries'⟩ := pushSeries_ordered hsound ho hseries
    have hinv := hkept.push _ Heap.pushSeries_perm s p hsound (hroom.mono (by omega)) h
    cases count with
    | zero => exact ⟨⟨hsound', ho'⟩, hinv⟩
    | succ count => exact ih hroom' hsound' ho' (hseries' (hroom.mono (by omega))) hinv

theorem step_induction (hkept : Kept good inv) {s : SendQueue} {i : QueueInput}
    (hroom : s.HasRoom i.pushes) (hgood : i = .pop → good s) (hwell : s.WellWeighted)
    (h : inv s) :
    (s.step i).WellWeighted ∧ inv (s.step i) := by
  cases i with
  | send p =>
    obtain ⟨hsound, -, -⟩ := pushMessage_spec Heap.push_perm hwell.sound hroom p
    exact ⟨⟨hsound, hwell.ordered.push _ _⟩,
      hkept.push _ Heap.push_perm s p hwell.sound hroom h⟩
  | splitPacket p count =>
    have hsound : s.startSeries.Sound := ⟨hwell.sound.initHeapWeights_le, hwell.sound.counter⟩
    have hroom : s.startSeries.HasRoom count := ⟨hroom.next, hroom.queued⟩
    have hseries : s.startSeries.Ascending p := fun hflag => by cases hflag
    exact pushFragments_induction hkept hroom hsound hwell.ordered hseries (hkept.startSeries s h)
  | pop =>
    show s.pop.WellWeighted ∧ inv s.pop
    cases hn : s.queued.head? with
    | none =>
      rw [pop_nil hn]
      exact ⟨hwell, h⟩
    | some n =>
      obtain ⟨hperm, -, hnext, -, ho⟩ := pop_spec hn
      refine ⟨⟨⟨?_, ?_⟩, ho hwell.ordered⟩, hkept.pop s n hwell hn (hgood rfl) h⟩
      · intro m hm
        exact hwell.sound.initHeapWeights_le m
          (hperm.mem_iff.mpr (List.mem_cons_of_mem _ hm))
      · intro q
        rw [hnext]
        exact hwell.sound.counter q

theorem initial_wellWeighted : initial.WellWeighted :=
  ⟨initial_sound, HeapOrder.Ordered.nil⟩

/-- Every step has room for the weights that it issues, and pops in a good state. -/
def Fits (good : SendQueue → Prop) (s : SendQueue) (i : QueueInput) : Prop :=
  s.HasRoom i.pushes ∧ (i = .pop → good s)

theorem run_induction (hkept : Kept good inv) {s : SendQueue} {inputs : List QueueInput}
    (hrun : Transition.Along step (Fits good) s inputs) (hwell : s.WellWeighted) (h : inv s) :
    (inputs.foldl step s).WellWeighted ∧ inv (inputs.foldl step s) :=
  @Transition.Along.invariant _ _ _ _ (fun s => s.WellWeighted ∧ inv s) _ _ hrun ⟨hwell, h⟩
    fun _ _ hinv hfits => step_induction hkept hfits.1 hfits.2 hinv.1 hinv.2

/-- The numbers of the messages are below the count of pushes. -/
structure Counted (s : SendQueue) : Prop where
  popped_lt : ∀ n ∈ s.popped, n.data.number < s.pushed
  queued_lt : ∀ n ∈ s.queued, n.data.number < s.pushed

theorem Counted.pushMessage
    (hpush : ∀ h weight data, (push h weight data).heap.Perm (⟨weight, data⟩ :: h.heap))
    {s : SendQueue} (h : s.Counted) (p : PacketPriority) : (s.pushMessage push p).Counted := by
  have hperm : (s.pushMessage push p).queued.Perm
      (⟨(s.getNextWeight p).1, ⟨p, s.pushed⟩⟩ :: s.queued) := hpush _ _ _
  have hpushed : (s.pushMessage push p).pushed = s.pushed + 1 := rfl
  constructor
  · intro n hn
    exact Nat.lt_succ_of_lt (h.popped_lt n hn)
  · intro n hn
    rw [hpushed]
    rcases List.mem_cons.mp (hperm.mem_iff.mp hn) with rfl | hn
    · exact Nat.lt_succ_self _
    · exact Nat.lt_succ_of_lt (h.queued_lt n hn)

theorem Counted.pop {s : SendQueue} (h : s.Counted) {r : QueueNode}
    (hr : s.queued.head? = some r) : s.pop.Counted := by
  obtain ⟨hperm, hpopped, -, hpushed, -⟩ := pop_spec hr
  constructor
  · intro n hn
    rw [hpushed]
    rw [hpopped] at hn
    rcases List.mem_append.mp hn with hn | hn
    · exact h.popped_lt n hn
    · rw [List.mem_singleton.mp hn]
      exact h.queued_lt r (List.mem_of_head? hr)
  · intro n hn
    rw [hpushed]
    exact h.queued_lt n (hperm.mem_iff.mpr (List.mem_cons_of_mem r hn))

theorem counted_kept (good : SendQueue → Prop) : Kept good Counted where
  push _ hpush _ p _ _ h := h.pushMessage hpush p
  startSeries _ h := ⟨h.popped_lt, h.queued_lt⟩
  pop _ _ _ hr _ h := h.pop hr

theorem initial_counted : initial.Counted where
  popped_lt n hn := by cases hn
  queued_lt n hn := by cases hn

end SendQueue

end SLikeNet
