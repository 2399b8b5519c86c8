import SLikeNet.Heap

/-! Runs of the operations of `DataStructures::Heap`, in which the elements of a series come in heap
order. -/

namespace SLikeNet

namespace Heap

variable {W α : Type*} [LinearOrder W] {isMaxHeap : Bool}

inductive Operation (W α : Type*)
  | push (weight : W) (data : α)
  | pop
  | startSeries
  | pushSeries (weight : W) (data : α)

/-- The series that can be continued, with the weight of its last element. -/
inductive Series (W : Type*)
  | closed
  | opened (last : Option W)

structure Run (W α : Type*) (isMaxHeap : Bool) where
  heap : Heap W α isMaxHeap
  series : Series W

namespace Run

def initial : Run W α isMaxHeap := ⟨Heap.empty, .closed⟩

/-- An operation and what it returns. `Push` and `Pop` end a series. -/
inductive Performs (s : Run W α isMaxHeap) :
    Operation W α → Option α → Run W α isMaxHeap → Prop
  | push (weight : W) (data : α) :
    Performs s (.push weight data) none ⟨s.heap.push weight data, .closed⟩
  | pop {data : α} {heap : Heap W α isMaxHeap} (h : s.heap.pop 0 = some (data, heap)) :
    Performs s .pop (some data) ⟨heap, .closed⟩
  | startSeries : Performs s .startSeries none ⟨s.heap.startSeries, .opened none⟩
  | pushSeries {last : Option W} (weight : W) (data : α) (hseries : s.series = .opened last)
    (hmonotone : ∀ w ∈ last, before isMaxHeap weight w = false) :
    Performs s (.pushSeries weight data) none
      ⟨s.heap.pushSeries weight data, .opened (some weight)⟩

inductive Reachable : Run W α isMaxHeap → Prop
  | initial : Reachable initial
  | performs {s s' : Run W α isMaxHeap} {op : Operation W α} {returned : Option α}
    (h : Reachable s) (hop : s.Performs op returned s') : Reachable s'

/-- What an operation makes of the nodes. -/
def Changes (isMaxHeap : Bool) (nodes : List (HeapNode W α)) :
    Operation W α → Option α → List (HeapNode W α) → Prop
  | .push weight data, _, after => after.Perm (⟨weight, data⟩ :: nodes)
  | .pushSeries weight data, _, after => after.Perm (⟨weight, data⟩ :: nodes)
  | .startSeries, _, after => after = nodes
  | .pop, returned, after =>
    ∃ n, returned = some n.data ∧ (∀ m ∈ nodes, nodeLe isMaxHeap n m) ∧ nodes.Perm (n :: after)

/-- The next element of the series goes to the end of the array if the array from the parent of its
end on does not belong below the last one. -/
structure Sound (s : Run W α isMaxHeap) : Prop where
  ordered : s.heap.Ordered
  series : ∀ last, s.series = .opened last → s.heap.optimizeNextSeriesPush = true →
    ∃ w ∈ last, ∀ n ∈ s.heap.heap.drop (parent s.heap.size), before isMaxHeap w n.weight = false

variable {s s' : Run W α isMaxHeap}

theorem sound_initial : (initial : Run W α isMaxHeap).Sound where
  ordered := HeapOrder.Ordered.nil
  series := by
    intro last hseries
    cases hseries

theorem Sound.follows (h : s.Sound) {last : Option W} (hseries : s.series = .opened last)
    {weight : W} (hmonotone : ∀ w ∈ last, before isMaxHeap weight w = false)
    (hflag : s.heap.optimizeNextSeriesPush = true) :
    ∀ n ∈ s.heap.heap.drop (parent s.heap.size), before isMaxHeap weight n.weight = false := by
  obtain ⟨w, hw, hle⟩ := h.series last hseries hflag
  exact fun n hn => before_trans_false (hle n hn) (hmonotone w hw)

theorem mem_drop_parent {V β : Type*} {nodes : List (HeapNode V β)} {n m : HeapNode V β}
    (h : m ∈ (nodes ++ [n]).drop (parent (nodes ++ [n]).length)) :
    m ∈ nodes.drop (parent nodes.length) ∨ m = n := by
  have hle : parent nodes.length ≤ parent (nodes ++ [n]).length := by
    rw [List.length_append]
    unfold parent
    omega
  have hinside : parent nodes.length ≤ nodes.length := by
    unfold parent
    omega
  have hm := List.drop_subset_drop_left _ hle h
  rw [List.drop_append_of_le_length hinside, List.mem_append, List.mem_singleton] at hm
  exact hm

theorem Sound.pushSeries (h : s.Sound) {last : Option W} (hseries : s.series = .opened last)
    {weight : W} (hmonotone : ∀ w ∈ last, before isMaxHeap weight w = false) (data : α) :
    (⟨s.heap.pushSeries weight data, .opened (some weight)⟩ : Run W α isMaxHeap).Sound := by
  have hfollows := h.follows hseries hmonotone
  refine ⟨h.ordered.pushSeries hfollows data, fun last' hlast hflag => ?_⟩
  cases hlast
  obtain ⟨heq, hle⟩ := pushSeries_optimized hfollows hflag
  refine ⟨weight, rfl, fun n hn => ?_⟩
  rw [size, heq] at hn
  obtain hn | rfl := mem_drop_parent hn
  · exact hle n hn
  · cases isMaxHeap <;> simp [before]

theorem Sound.performs (h : s.Sound) {op : Operation W α} {returned : Option α}
    (hop : s.Performs op returned s') :
    s'.Sound ∧ Changes isMaxHeap s.heap.heap op returned s'.heap.heap := by
  cases hop with
  | push weight data =>
    refine ⟨⟨h.ordered.push weight data, fun last hlast => ?_⟩, push_perm _ weight data⟩
    cases hlast
  | @pop data heap hpop =>
    cases hhead : s.heap.heap.head? with
    | none =>
      rw [List.head?_eq_none_iff] at hhead
      rw [Heap.pop, hhead] at hpop
      cases hpop
    | some n =>
      obtain ⟨heap', hpop', hperm, -, hordered⟩ := pop_eq hhead
      obtain ⟨rfl, rfl⟩ := Prod.mk.inj (Option.some.inj (hpop.symm.trans hpop'))
      refine ⟨⟨hordered h.ordered, fun last hlast => ?_⟩, n, rfl,
        fun m hm => h.ordered.head_le hhead hm, hperm⟩
      cases hlast
  | startSeries =>
    refine ⟨⟨h.ordered, fun last _ hflag => ?_⟩, rfl⟩
    cases hflag
  | pushSeries weight data hseries hmonotone =>
    exact ⟨h.pushSeries hseries hmonotone data, pushSeries_perm _ weight data⟩

theorem Reachable.sound (h : s.Reachable) : s.Sound := by
  induction h with
  | initial => exact sound_initial
  | performs _ hop ih => exact (ih.performs hop).1

/-- In every run the weights respect the heap order, `Pop(0)` returns a node that no other one
belongs above, and the nodes change by the one that is pushed or returned only. -/
theorem run_keeps_heap (h : s.Reachable) :
    s.heap.Ordered ∧
      (∀ op returned s', s.Performs op returned s' →
        Changes isMaxHeap s.heap.heap op returned s'.heap.heap) ∧
      (s.heap.heap ≠ [] → ∃ data s', s.Performs .pop (some data) s') := by
  refine ⟨h.sound.ordered, fun op returned s' hop => (h.sound.performs hop).2, fun hne => ?_⟩
  obtain ⟨n, nodes, heq⟩ := List.exists_cons_of_ne_nil hne
  obtain ⟨heap, hpop, -⟩ := pop_eq (show s.heap.heap.head? = some n by rw [heq]; rfl)
  exact ⟨n.data, _, .pop hpop⟩

/-- A message, and a series of two behind it. -/
theorem run_keeps_heap_series :
    ((((Heap.empty : Heap ℕ ℕ false).push 5 0).startSeries.pushSeries 6 1).pushSeries 8 2).Ordered
      := by
  have hpush := Reachable.performs .initial (.push 5 0 : (initial : Run ℕ ℕ false).Performs _ _ _)
  have hstart := hpush.performs .startSeries
  have hfirst := hstart.performs (.pushSeries 6 1 rfl (by simp))
  have hsecond := hfirst.performs (.pushSeries 8 2 rfl (by simp [before]))
  exact (run_keeps_heap hsecond).1

end Run

end Heap

end SLikeNet
