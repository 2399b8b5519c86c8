import SLikeNet.Library.HeapOrder
import Mathlib.Order.Lattice

/-! `DataStructures::Heap` of `DS_Heap.h`, the queue behind the send buffer and
the ordering buffers, and the order and contents its operations keep. -/

namespace SLikeNet

structure HeapNode (W α : Type*) where
  weight : W
  data : α
deriving DecidableEq

def HeapNode.map {W α β : Type*} (f : α → β) (n : HeapNode W α) : HeapNode W β :=
  ⟨n.weight, f n.data⟩

theorem HeapNode.weight_map {W α β : Type*} (f : α → β) (n : HeapNode W α) :
    (n.map f).weight = n.weight :=
  rfl

structure Heap (W α : Type*) (isMaxHeap : Bool) where
  heap : List (HeapNode W α)
  optimizeNextSeriesPush : Bool

namespace Heap

variable {W α β : Type*} [LinearOrder W] {isMaxHeap : Bool}

def empty : Heap W α isMaxHeap := ⟨[], false⟩

def size (h : Heap W α isMaxHeap) : Nat := h.heap.length

def leftChild (i : Nat) : Nat := i * 2 + 1

def rightChild (i : Nat) : Nat := i * 2 + 2

def parent (i : Nat) : Nat := (i - 1) / 2

/-- `a` belongs strictly above `b`: larger in a max heap, smaller in a min heap. -/
def before (isMaxHeap : Bool) (a b : W) : Bool :=
  if isMaxHeap then decide (b < a) else decide (a < b)

/-- The sift of `Push`. The index at least halves, so its start value bounds the steps. -/
def pushLoop (isMaxHeap : Bool) (weight : W) :
    Nat → Nat → List (HeapNode W α) → List (HeapNode W α)
  | 0, _, heap => heap
  | fuel + 1, currentIndex, heap =>
    if currentIndex = 0 then heap
    else
      match heap[parent currentIndex]? with
      | none => heap
      | some p =>
        if before isMaxHeap weight p.weight then
          pushLoop isMaxHeap weight fuel (parent currentIndex)
            (heap.swap currentIndex (parent currentIndex))
        else heap

def push (h : Heap W α isMaxHeap) (weight : W) (data : α) : Heap W α isMaxHeap :=
  { h with heap := pushLoop isMaxHeap weight h.size h.size (h.heap ++ [⟨weight, data⟩]) }

def startSeries (h : Heap W α isMaxHeap) : Heap W α isMaxHeap :=
  { h with optimizeNextSeriesPush := false }

/-- The first weight of a series is compared with its parent and every node after it. -/
def pushSeries (h : Heap W α isMaxHeap) (weight : W) (data : α) : Heap W α isMaxHeap :=
  if h.optimizeNextSeriesPush = false then
    if (h.heap.drop (parent h.size)).any fun n => before isMaxHeap weight n.weight then
      h.push weight data
    else ⟨h.heap ++ [⟨weight, data⟩], true⟩
  else { h with heap := h.heap ++ [⟨weight, data⟩] }

/-- The sift of `Pop`. The index at least doubles, so the size bounds the steps. -/
def popLoop (isMaxHeap : Bool) (currentWeight : W) :
    Nat → Nat → List (HeapNode W α) → List (HeapNode W α)
  | 0, _, heap => heap
  | fuel + 1, currentIndex, heap =>
    match heap[leftChild currentIndex]?, heap[rightChild currentIndex]? with
    | none, _ => heap
    | some l, none =>
      if before isMaxHeap l.weight currentWeight then
        heap.swap (leftChild currentIndex) currentIndex
      else heap
    | some l, some r =>
      if !before isMaxHeap l.weight currentWeight && !before isMaxHeap r.weight currentWeight then
        heap
      else if before isMaxHeap l.weight r.weight then
        popLoop isMaxHeap currentWeight fuel (leftChild currentIndex)
          (heap.swap (leftChild currentIndex) currentIndex)
      else
        popLoop isMaxHeap currentWeight fuel (rightChild currentIndex)
          (heap.swap (rightChild currentIndex) currentIndex)

/-- `Pop(startingIndex)`; `none` where the source reads outside the array. -/
def pop (h : Heap W α isMaxHeap) (startingIndex : Nat) : Option (α × Heap W α isMaxHeap) :=
  match h.heap[startingIndex]?, h.heap.getLast? with
  | some node, some last =>
    let rest := (h.heap.set startingIndex last).dropLast
    some (node.data, { h with heap := popLoop isMaxHeap last.weight h.size startingIndex rest })
  | _, _ => none

def peek (h : Heap W α isMaxHeap) : Option α := h.heap.head?.map HeapNode.data

def peekWeight (h : Heap W α isMaxHeap) : Option W := h.heap.head?.map HeapNode.weight

/-- The nodes in the order in which `Pop(0)` returns them. -/
def drainLoop : Nat → Heap W α isMaxHeap → List (HeapNode W α)
  | 0, _ => []
  | fuel + 1, h =>
    match h.heap.head?, h.pop 0 with
    | some n, some (_, rest) => n :: drainLoop fuel rest
    | _, _ => []

def drain (h : Heap W α isMaxHeap) : List (HeapNode W α) := drainLoop h.size h

/-- The data stored in the heap, in array order. -/
def contents (h : Heap W α isMaxHeap) : List α := h.heap.map HeapNode.data

/-- `a` may stand below `p`. -/
def nodeLe (isMaxHeap : Bool) (p a : HeapNode W α) : Prop :=
  before isMaxHeap a.weight p.weight = false

theorem before_asymm {a b : W} (h : before isMaxHeap a b = true) : before isMaxHeap b a = false := by
  cases isMaxHeap <;> simp only [before, Bool.false_eq_true, if_false, if_true, decide_eq_true_eq,
    decide_eq_false_iff_not, not_lt] at h ⊢ <;> exact le_of_lt h

theorem before_trans_false {a b c : W} (hab : before isMaxHeap b a = false)
    (hbc : before isMaxHeap c b = false) : before isMaxHeap c a = false := by
  cases isMaxHeap
  · simp only [before, Bool.false_eq_true, if_false, decide_eq_false_iff_not, not_lt] at *
    exact le_trans hab hbc
  · simp only [before, if_true, decide_eq_false_iff_not, not_lt] at *
    exact le_trans hbc hab

instance : Std.Refl (@nodeLe W α _ isMaxHeap) :=
  ⟨fun a => by cases isMaxHeap <;> simp [nodeLe, before]⟩

instance : IsTrans (HeapNode W α) (nodeLe isMaxHeap) :=
  ⟨fun _ _ _ hab hbc => before_trans_false hab hbc⟩

/-- The weights respect the heap order. -/
def Ordered (h : Heap W α isMaxHeap) : Prop := HeapOrder.Ordered (nodeLe isMaxHeap) h.heap

theorem pushLoop_perm (weight : W) (fuel i : Nat) (heap : List (HeapNode W α)) :
    (pushLoop isMaxHeap weight fuel i heap).Perm heap := by
  induction fuel generalizing i heap with
  | zero => exact .refl _
  | succ fuel ih =>
    simp only [pushLoop]
    split
    · exact .refl _
    · split
      · exact .refl _
      · split
        · exact (ih _ _).trans (List.swap_perm _ _ _)
        · exact .refl _

theorem pushLoop_ordered {weight : W} {fuel i : Nat} {heap : List (HeapNode W α)}
    (h : HeapOrder.UpReady (nodeLe isMaxHeap) heap i) (hfuel : i ≤ fuel) {n : HeapNode W α}
    (hn : heap[i]? = some n) (hw : n.weight = weight) :
    HeapOrder.Ordered (nodeLe isMaxHeap) (pushLoop isMaxHeap weight fuel i heap) := by
  induction fuel generalizing i heap with
  | zero => exact h.ordered fun a p hi => absurd hi (by omega)
  | succ fuel ih =>
    by_cases hi : i = 0
    · simp only [pushLoop, hi, if_true]
      exact h.ordered fun a p hpos => absurd hpos (by omega)
    · have hil := HeapOrder.getElem?_lt hn
      have hpl : parent i < heap.length := by unfold parent; omega
      have hp := List.getElem?_eq_getElem hpl
      simp only [pushLoop, hi, if_false, hp]
      split
      · rename_i hb
        have hup : before isMaxHeap n.weight heap[parent i].weight = true := by rw [hw]; exact hb
        refine ih (h.swap (by omega) hn hp (before_asymm hup)) (by unfold parent; omega) ?_
        rw [HeapOrder.getElem?_swap hil hpl, if_neg (by unfold parent; omega), if_pos rfl]
        exact hn
      · rename_i hb
        refine h.ordered fun a p _ ha hp' => ?_
        obtain rfl : n = a := Option.some.inj (hn.symm.trans ha)
        obtain rfl : heap[parent i] = p := Option.some.inj (hp.symm.trans hp')
        simpa [nodeLe, hw] using hb

theorem push_perm (h : Heap W α isMaxHeap) (weight : W) (data : α) :
    (h.push weight data).heap.Perm (⟨weight, data⟩ :: h.heap) :=
  (pushLoop_perm _ _ _ _).trans (List.perm_append_singleton _ _)

theorem Ordered.push {h : Heap W α isMaxHeap} (ho : h.Ordered) (weight : W) (data : α) :
    (h.push weight data).Ordered := by
  refine pushLoop_ordered (n := ⟨weight, data⟩) (HeapOrder.Ordered.up_append ho _)
    (Nat.le_refl _) ?_ rfl
  simp [size]

/-- An element at the end of the array is in its place if no node from its parent on belongs
below it. -/
theorem Ordered.append {h : Heap W α isMaxHeap} (ho : h.Ordered) {weight : W}
    (hle : ∀ n ∈ h.heap.drop (parent h.size), before isMaxHeap weight n.weight = false) (data : α)
    (optimizeNextSeriesPush : Bool) :
    (⟨h.heap ++ [⟨weight, data⟩], optimizeNextSeriesPush⟩ : Heap W α isMaxHeap).Ordered := by
  apply (HeapOrder.Ordered.up_append ho _).ordered
  intro a p hpos ha hp
  have hparent : parent h.size < h.heap.length := by
    unfold parent size
    omega
  have ha : a = ⟨weight, data⟩ := by
    rw [List.getElem?_append_right (Nat.le_refl _), Nat.sub_self] at ha
    exact (Option.some.inj ha).symm
  have hp : h.heap[parent h.size]? = some p := by
    rw [← hp]
    exact (List.getElem?_append_left hparent).symm
  rw [ha]
  apply hle p
  apply List.mem_of_getElem? (i := 0)
  rw [List.getElem?_drop, Nat.add_zero, hp]

theorem pushSeries_perm (h : Heap W α isMaxHeap) (weight : W) (data : α) :
    (h.pushSeries weight data).heap.Perm (⟨weight, data⟩ :: h.heap) := by
  unfold pushSeries
  split
  · split
    · exact push_perm h weight data
    · exact List.perm_append_singleton _ _
  · exact List.perm_append_singleton _ _

theorem pushSeries_optimized {h : Heap W α isMaxHeap} {weight : W}
    (hseries : h.optimizeNextSeriesPush = true →
      ∀ n ∈ h.heap.drop (parent h.size), before isMaxHeap weight n.weight = false) {data : α}
    (hoptimize : (h.pushSeries weight data).optimizeNextSeriesPush = true) :
    (h.pushSeries weight data).heap = h.heap ++ [⟨weight, data⟩] ∧
      ∀ n ∈ h.heap.drop (parent h.size), before isMaxHeap weight n.weight = false := by
  unfold pushSeries at hoptimize ⊢
  split at hoptimize
  · rename_i hflag
    split at hoptimize
    · rw [push, hflag] at hoptimize
      cases hoptimize
    · rename_i hany
      rw [if_pos hflag, if_neg hany]
      refine ⟨rfl, fun n hn => ?_⟩
      by_contra hbefore
      exact hany (List.any_eq_true.mpr ⟨n, hn, eq_true_of_ne_false hbefore⟩)
  · rename_i hflag
    rw [if_neg hflag]
    exact ⟨rfl, hseries (eq_true_of_ne_false hflag)⟩

theorem Ordered.pushSeries {h : Heap W α isMaxHeap} (ho : h.Ordered) {weight : W}
    (hseries : h.optimizeNextSeriesPush = true →
      ∀ n ∈ h.heap.drop (parent h.size), before isMaxHeap weight n.weight = false) (data : α) :
    (h.pushSeries weight data).Ordered := by
  cases hoptimize : (h.pushSeries weight data).optimizeNextSeriesPush with
  | true =>
    obtain ⟨heq, hle⟩ := pushSeries_optimized hseries hoptimize
    have hordered := ho.append hle data true
    rw [← heq] at hordered
    exact hordered
  | false =>
    unfold Heap.pushSeries at hoptimize ⊢
    split at hoptimize
    · rename_i hflag
      rw [if_pos hflag]
      split at hoptimize
      · rename_i hany
        rw [if_pos hany]
        exact ho.push weight data
      · cases hoptimize
    · rename_i hflag
      exact absurd hoptimize hflag

theorem popLoop_perm (weight : W) (fuel i : Nat) (heap : List (HeapNode W α)) :
    (popLoop isMaxHeap weight fuel i heap).Perm heap := by
  induction fuel generalizing i heap with
  | zero => exact .refl _
  | succ fuel ih =>
    simp only [popLoop]
    split
    · exact .refl _
    · split
      · exact List.swap_perm _ _ _
      · exact .refl _
    · split
      · exact .refl _
      · split
        · exact (ih _ _).trans (List.swap_perm _ _ _)
        · exact (ih _ _).trans (List.swap_perm _ _ _)

theorem child_cases {i j : Nat} (hj : 0 < j) (h : (j - 1) / 2 = i) :
    j = leftChild i ∨ j = rightChild i := by
  unfold leftChild rightChild
  omega

theorem ordered_of_stay {weight : W} {i : Nat} {heap : List (HeapNode W α)}
    (h : HeapOrder.DownReady (nodeLe isMaxHeap) heap i)
    (hw : ∀ n, heap[i]? = some n → n.weight = weight)
    (hc : ∀ j c, (j = leftChild i ∨ j = rightChild i) → heap[j]? = some c →
      before isMaxHeap c.weight weight = false) : HeapOrder.Ordered (nodeLe isMaxHeap) heap := by
  refine h.ordered fun j a b hj hpar ha hb => ?_
  have := hc j a (child_cases hj hpar) ha
  rw [← hw b hb] at this
  exact this

theorem downReady_swap {weight : W} {fuel i c : Nat} {heap : List (HeapNode W α)}
    {a : HeapNode W α} (h : HeapOrder.DownReady (nodeLe isMaxHeap) heap i)
    (hfuel : heap.length ≤ fuel + 1 + i) (hw : ∀ n, heap[i]? = some n → n.weight = weight)
    (hc : c = leftChild i ∨ c = rightChild i) (ha : heap[c]? = some a)
    (hb : before isMaxHeap a.weight weight = true)
    (hmin : ∀ j d, (j = leftChild i ∨ j = rightChild i) → heap[j]? = some d →
      before isMaxHeap d.weight a.weight = false) :
    HeapOrder.DownReady (nodeLe isMaxHeap) (heap.swap c i) c ∧
      (heap.swap c i).length ≤ fuel + c ∧
      ∀ n, (heap.swap c i)[c]? = some n → n.weight = weight := by
  have hgt : i < c := by unfold leftChild rightChild at hc; omega
  have hcl := HeapOrder.getElem?_lt ha
  have hil : i < heap.length := by omega
  have hi := List.getElem?_eq_getElem hil
  refine ⟨h.swap (by omega) (by unfold leftChild rightChild at hc; omega) ha hi ?_
    (fun j d hj hpar hd => hmin j d (child_cases hj hpar) hd), ?_, ?_⟩
  · exact before_asymm (by rw [hw _ hi]; exact hb)
  · rw [List.length_swap]
    omega
  · intro n hn
    rw [HeapOrder.getElem?_swap hcl hil, if_pos rfl] at hn
    exact hw n hn

theorem popLoop_ordered {weight : W} {fuel i : Nat} {heap : List (HeapNode W α)}
    (h : HeapOrder.DownReady (nodeLe isMaxHeap) heap i) (hfuel : heap.length ≤ fuel + i)
    (hw : ∀ n, heap[i]? = some n → n.weight = weight) :
    HeapOrder.Ordered (nodeLe isMaxHeap) (popLoop isMaxHeap weight fuel i heap) := by
  induction fuel generalizing i heap with
  | zero =>
    refine h.ordered fun j a b _ _ _ hb => ?_
    have := HeapOrder.getElem?_lt hb
    omega
  | succ fuel ih =>
    simp only [popLoop]
    have hlr : leftChild i + 1 = rightChild i := rfl
    split
    · rename_i hl
      refine ordered_of_stay h hw fun j c hj hc => ?_
      have := HeapOrder.getElem?_lt hc
      have := List.getElem?_eq_none_iff.mp hl
      omega
    · rename_i l hl hr
      have only : ∀ j d, (j = leftChild i ∨ j = rightChild i) → heap[j]? = some d → d = l := by
        rintro j d (rfl | rfl) hd
        · exact Option.some.inj (hd.symm.trans hl)
        · rw [hr] at hd
          cases hd
      split
      · rename_i hb
        obtain ⟨hd, -, hw'⟩ := downReady_swap h hfuel hw (.inl rfl) hl hb fun j d hj hjd => by
          rw [only j d hj hjd]
          cases isMaxHeap <;> simp [before]
        refine hd.ordered fun j a b hj hpar ha _ => ?_
        have h1 := HeapOrder.getElem?_lt ha
        have h2 := List.getElem?_eq_none_iff.mp hr
        rw [List.length_swap] at h1
        unfold leftChild at hpar
        unfold rightChild at h2
        omega
      · rename_i hb
        refine ordered_of_stay h hw fun j c hj hc => ?_
        rw [only j c hj hc]
        simpa using hb
    · rename_i l r hl hr
      have both : ∀ j d, (j = leftChild i ∨ j = rightChild i) → heap[j]? = some d →
          d = l ∨ d = r := by
        rintro j d (rfl | rfl) hd
        · exact .inl (Option.some.inj (hd.symm.trans hl))
        · exact .inr (Option.some.inj (hd.symm.trans hr))
      split
      · rename_i hb
        simp only [Bool.and_eq_true, Bool.not_eq_true'] at hb
        refine ordered_of_stay h hw fun j c hj hc => ?_
        rcases both j c hj hc with rfl | rfl
        · exact hb.1
        · exact hb.2
      · rename_i hb
        split
        · rename_i hlt
          have hl' : before isMaxHeap l.weight weight = true := by
            by_contra hno
            simp only [Bool.not_eq_true] at hno
            have hr' := before_trans_false hno (before_asymm hlt)
            simp [hno, hr'] at hb
          obtain ⟨h1, h2, h3⟩ := downReady_swap h hfuel hw (.inl rfl) hl hl' fun j d hj hjd => by
            rcases both j d hj hjd with rfl | rfl
            · cases isMaxHeap <;> simp [before]
            · exact before_asymm hlt
          exact ih h1 h2 h3
        · rename_i hge
          simp only [Bool.not_eq_true] at hge
          have hr' : before isMaxHeap r.weight weight = true := by
            by_contra hno
            simp only [Bool.not_eq_true] at hno
            have hl' := before_trans_false hno hge
            simp [hno, hl'] at hb
          obtain ⟨h1, h2, h3⟩ := downReady_swap h hfuel hw (.inr rfl) hr hr' fun j d hj hjd => by
            rcases both j d hj hjd with rfl | rfl
            · exact hge
            · cases isMaxHeap <;> simp [before]
          exact ih h1 h2 h3

theorem pop_eq {h : Heap W α isMaxHeap} {n : HeapNode W α} (hn : h.heap.head? = some n) :
    ∃ h' : Heap W α isMaxHeap, h.pop 0 = some (n.data, h') ∧ h.heap.Perm (n :: h'.heap) ∧
      h'.optimizeNextSeriesPush = h.optimizeNextSeriesPush ∧ (h.Ordered → h'.Ordered) := by
  have h0 : h.heap[0]? = some n := by rw [← List.head?_eq_getElem?]; exact hn
  have hne : h.heap ≠ [] := by
    intro he
    simp [he] at hn
  have hlast := List.getLast?_eq_some_getLast hne
  simp only [pop, h0, hlast, Option.some.injEq, Prod.mk.injEq, true_and, exists_eq_left']
  refine ⟨?_, fun ho => ?_⟩
  · obtain ⟨m, xs, he⟩ : ∃ m xs, h.heap = m :: xs := List.exists_cons_of_ne_nil hne
    obtain rfl : m = n := by simpa [he] using h0
    refine .trans ?_ ((popLoop_perm _ _ _ _).symm.cons m)
    simp only [he, List.set_cons_zero]
    cases xs with
    | nil => simp
    | cons x xs =>
      have hne' : x :: xs ≠ [] := by simp
      rw [List.getLast_cons hne', List.dropLast_cons_of_ne_nil hne']
      refine List.Perm.cons m ?_
      have := List.dropLast_append_getLast hne'
      calc (x :: xs).Perm ((x :: xs).dropLast ++ [(x :: xs).getLast hne']) := by rw [this]
        _ |>.Perm ((x :: xs).getLast hne' :: (x :: xs).dropLast) := List.perm_append_singleton _ _
  · refine popLoop_ordered (HeapOrder.Ordered.down_set_dropLast ho _) ?_ ?_
    · simp [size]
    · intro m hm
      rw [List.getElem?_dropLast] at hm
      split at hm
      · rw [List.getElem?_set_self (by simp at *; omega)] at hm
        exact congrArg _ (Option.some.inj hm).symm
      · cases hm

theorem Ordered.head_le {h : Heap W α isMaxHeap} (ho : h.Ordered) {n m : HeapNode W α}
    (hn : h.heap.head? = some n) (hm : m ∈ h.heap) : nodeLe isMaxHeap n m :=
  HeapOrder.Ordered.root_le_of_mem ho (by rw [← List.head?_eq_getElem?]; exact hn) hm

theorem drain_eq_nil {h : Heap W α isMaxHeap} (hn : h.heap.head? = none) : h.drain = [] := by
  have hnil : h.heap = [] := List.head?_eq_none_iff.mp hn
  simp [drain, size, hnil, drainLoop]

theorem drain_eq_cons {h : Heap W α isMaxHeap} {n : HeapNode W α} (hn : h.heap.head? = some n) :
    ∃ h' : Heap W α isMaxHeap, h.pop 0 = some (n.data, h') ∧ h.drain = n :: h'.drain ∧
      h.size = h'.size + 1 ∧ (h.Ordered → h'.Ordered) := by
  obtain ⟨h', hpop, hperm, -, ho⟩ := pop_eq hn
  have hsize : h.size = h'.size + 1 := hperm.length_eq
  exact ⟨h', hpop, by simp [drain, hsize, drainLoop, hn, hpop], hsize, ho⟩

theorem drain_perm (h : Heap W α isMaxHeap) : h.drain.Perm h.heap := by
  obtain ⟨fuel, hfuel⟩ : ∃ fuel, h.size = fuel := ⟨_, rfl⟩
  induction fuel generalizing h with
  | zero => simp [drain, hfuel, drainLoop, List.length_eq_zero_iff.mp hfuel]
  | succ fuel ih =>
    obtain ⟨n, hn⟩ : ∃ n, h.heap.head? = some n :=
      Option.isSome_iff_exists.mp (by
        rw [List.isSome_head?]
        exact List.ne_nil_of_length_eq_add_one hfuel)
    obtain ⟨h', hpop, hperm, -, -⟩ := pop_eq hn
    obtain ⟨h'', hpop', hdrain, hsize, -⟩ := drain_eq_cons hn
    obtain rfl : h' = h'' := by
      rw [hpop] at hpop'
      simpa using hpop'
    rw [hdrain]
    exact ((ih h' (by omega)).cons n).trans hperm.symm

theorem Ordered.drain_sorted {h : Heap W α isMaxHeap} (ho : h.Ordered) :
    h.drain.Pairwise (nodeLe isMaxHeap) := by
  obtain ⟨fuel, hfuel⟩ : ∃ fuel, h.size = fuel := ⟨_, rfl⟩
  induction fuel generalizing h with
  | zero => simp [drain, hfuel, drainLoop]
  | succ fuel ih =>
    obtain ⟨n, hn⟩ : ∃ n, h.heap.head? = some n :=
      Option.isSome_iff_exists.mp (by
        rw [List.isSome_head?]
        exact List.ne_nil_of_length_eq_add_one hfuel)
    obtain ⟨h', -, hdrain, hsize, ho'⟩ := drain_eq_cons hn
    have hperm := drain_perm h
    rw [hdrain] at hperm ⊢
    refine List.pairwise_cons.mpr ⟨fun m hm => ?_, ih (ho' ho) (by omega)⟩
    exact ho.head_le hn (hperm.mem_iff.mp (List.mem_cons_of_mem n hm))

/-- The same heap with other data; the weights alone decide what its operations do. -/
def map (f : α → β) (h : Heap W α isMaxHeap) : Heap W β isMaxHeap :=
  ⟨h.heap.map (HeapNode.map f), h.optimizeNextSeriesPush⟩

theorem swap_map {γ δ : Type*} (f : γ → δ) (xs : List γ) (i j : Nat) :
    (xs.map f).swap i j = (xs.swap i j).map f := by
  by_cases hi : i < xs.length
  · by_cases hj : j < xs.length
    · rw [List.swap_eq_of_lt (by rwa [List.length_map]) (by rwa [List.length_map]),
        List.swap_eq_of_lt hi hj, List.map_set, List.map_set, List.getElem_map, List.getElem_map]
    · rw [List.swap_eq_of_ge_right (by rw [List.length_map]; omega),
        List.swap_eq_of_ge_right (by omega)]
  · rw [List.swap_eq_of_ge_left (by rw [List.length_map]; omega),
      List.swap_eq_of_ge_left (by omega)]

variable (f : α → β)

theorem pushLoop_map (weight : W) (fuel i : Nat) (heap : List (HeapNode W α)) :
    pushLoop isMaxHeap weight fuel i (heap.map (HeapNode.map f)) =
      (pushLoop isMaxHeap weight fuel i heap).map (HeapNode.map f) := by
  induction fuel generalizing i heap with
  | zero => rfl
  | succ fuel ih =>
    rw [pushLoop, pushLoop, List.getElem?_map]
    by_cases hi : i = 0
    · rw [if_pos hi, if_pos hi]
    · rw [if_neg hi, if_neg hi]
      cases heap[parent i]? with
      | none => rfl
      | some p =>
        simp only [Option.map_some]
        rw [HeapNode.weight_map f p]
        by_cases hb : before isMaxHeap weight p.weight = true
        · rw [if_pos hb, if_pos hb, swap_map, ih]
        · rw [if_neg hb, if_neg hb]

theorem push_map (h : Heap W α isMaxHeap) (weight : W) (data : α) :
    (h.map f).push weight (f data) = (h.push weight data).map f := by
  have hsize : (h.map f).size = h.size := List.length_map _
  rw [push, hsize]
  have happend : (h.map f).heap ++ [(⟨weight, f data⟩ : HeapNode W β)] =
      (h.heap ++ [(⟨weight, data⟩ : HeapNode W α)]).map (HeapNode.map f) := by
    rw [List.map_append]
    rfl
  rw [happend, pushLoop_map]
  rfl

theorem pushSeries_map (h : Heap W α isMaxHeap) (weight : W) (data : α) :
    (h.map f).pushSeries weight (f data) = (h.pushSeries weight data).map f := by
  have hsize : (h.map f).size = h.size := List.length_map _
  have happend : (h.map f).heap ++ [(⟨weight, f data⟩ : HeapNode W β)] =
      (h.heap ++ [(⟨weight, data⟩ : HeapNode W α)]).map (HeapNode.map f) := by
    rw [List.map_append]
    rfl
  have hany : (((h.map f).heap.drop (parent (h.map f).size)).any fun n =>
      before isMaxHeap weight n.weight) =
      ((h.heap.drop (parent h.size)).any fun n => before isMaxHeap weight n.weight) := by
    rw [hsize]
    show ((List.map _ h.heap).drop _).any _ = _
    rw [← List.map_drop, List.any_map]
    rfl
  rw [pushSeries, pushSeries, hany, push_map, happend]
  show (if h.optimizeNextSeriesPush = false then _ else _) = _
  split
  · split <;> rfl
  · rfl

theorem popLoop_map (weight : W) (fuel i : Nat) (heap : List (HeapNode W α)) :
    popLoop isMaxHeap weight fuel i (heap.map (HeapNode.map f)) =
      (popLoop isMaxHeap weight fuel i heap).map (HeapNode.map f) := by
  induction fuel generalizing i heap with
  | zero => rfl
  | succ fuel ih =>
    rw [popLoop, popLoop, List.getElem?_map, List.getElem?_map]
    cases heap[leftChild i]? with
    | none => rfl
    | some l =>
      cases heap[rightChild i]? with
      | none =>
        simp only [Option.map_some, Option.map_none]
        rw [HeapNode.weight_map f l]
        by_cases hb : before isMaxHeap l.weight weight = true
        · rw [if_pos hb, if_pos hb, swap_map]
        · rw [if_neg hb, if_neg hb]
      | some r =>
        simp only [Option.map_some]
        rw [HeapNode.weight_map f l, HeapNode.weight_map f r]
        by_cases hstay : (!before isMaxHeap l.weight weight && !before isMaxHeap r.weight weight) =
          true
        · rw [if_pos hstay, if_pos hstay]
        · rw [if_neg hstay, if_neg hstay]
          by_cases hb : before isMaxHeap l.weight r.weight = true
          · rw [if_pos hb, if_pos hb, swap_map, ih]
          · rw [if_neg hb, if_neg hb, swap_map, ih]

theorem pop_map (h : Heap W α isMaxHeap) (startingIndex : Nat) :
    (h.map f).pop startingIndex =
      (h.pop startingIndex).map fun r => (f r.1, r.2.map f) := by
  have hheap : (h.map f).heap = h.heap.map (HeapNode.map f) := rfl
  rw [pop, pop, hheap, List.getElem?_map, List.getLast?_map]
  cases h.heap[startingIndex]? with
  | none => rfl
  | some node =>
    cases h.heap.getLast? with
    | none => rfl
    | some last =>
      have hset : (h.heap.map (HeapNode.map f)).set startingIndex
          (HeapNode.map f last) =
          (h.heap.set startingIndex last).map (HeapNode.map f) :=
        List.map_set.symm
      have hsize : (h.map f).size = h.size := List.length_map _
      dsimp only [Option.map_some]
      rw [hset, ← List.map_dropLast, popLoop_map, hsize]
      rfl

end Heap

end SLikeNet
