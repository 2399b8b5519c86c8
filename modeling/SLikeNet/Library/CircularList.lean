import Mathlib.Data.List.Chain
import Mathlib.Data.List.Iterate
import Mathlib.Data.List.Nodup
import Mathlib.Logic.Function.Basic

/-! Circular doubly linked lists: a head pointer and two links for each node, and
the list of nodes that they represent. -/

structure CircularList (K : Type*) where
  head : Option K
  next : K → K
  prev : K → K

namespace CircularList

section Operations

variable {K : Type*} [DecidableEq K]

/-- Takes `p` out of the ring; the head moves on, and is cleared when `p` was alone. -/
def remove (r : CircularList K) (p : K) : CircularList K :=
  let head := if r.head = some p then some (r.next p) else r.head
  { head := if head = some p then none else head
    next := Function.update r.next (r.prev p) (r.next p)
    prev := Function.update r.prev (r.next p) (r.prev p) }

/-- Puts `p` in front of the head, which is the end of the ring. -/
def addTail (r : CircularList K) (p : K) : CircularList K :=
  match r.head with
  | none =>
    { head := some p
      next := Function.update r.next p p
      prev := Function.update r.prev p p }
  | some h =>
    { head := some h
      next := Function.update (Function.update r.next p h) (r.prev h) p
      prev := Function.update (Function.update r.prev p (r.prev h)) h p }

end Operations

section Shape

variable {K : Type*}

def Linked (r : CircularList K) (a b : K) : Prop := r.next a = b ∧ r.prev b = a

/-- The links lead from each node of the list to the one after it and from the last
to the first. -/
def Closed (r : CircularList K) (l : List K) : Prop := (l ++ l.head?.toList).IsChain r.Linked

structure Represents (r : CircularList K) (l : List K) : Prop where
  head_eq : r.head = l.head?
  nodup : l.Nodup
  closed : Closed r l

theorem closed_cons {r : CircularList K} {a : K} {l : List K} :
    Closed r (a :: l) ↔ (a :: l).IsChain r.Linked ∧ ∀ z ∈ (a :: l).getLast?, r.Linked z a := by
  rw [Closed, List.isChain_append]
  simp

theorem closed_rotate {r : CircularList K} (xs ys : List K) (h : Closed r (xs ++ ys)) :
    Closed r (ys ++ xs) := by
  cases xs with
  | nil => simpa using h
  | cons x xs =>
    cases ys with
    | nil => simpa using h
    | cons y ys =>
      rw [List.cons_append, closed_cons, ← List.cons_append, List.isChain_append] at h ⊢
      obtain ⟨⟨hx, hy, hxy⟩, hlast⟩ := h
      refine ⟨⟨hy, hx, fun z hz w hw => ?_⟩, fun z hz => ?_⟩
      · obtain rfl : x = w := by simpa using hw
        apply hlast
        rw [List.getLast?_append]
        simp [Option.mem_def.mp hz]
      · apply hxy z _ y (by simp)
        rw [List.getLast?_append] at hz
        simpa using hz

/-- A change of the links that spares the inner steps of a list keeps its chain. -/
theorem isChain_frame {r r' : CircularList K} {l : List K} (h : l.IsChain r.Linked) (hnd : l.Nodup)
    (hframe : ∀ a ∈ l, ∀ b ∈ l, l.getLast? ≠ some a → l.head? ≠ some b →
      r.Linked a b → r'.Linked a b) : l.IsChain r'.Linked := by
  rw [List.isChain_iff_getElem] at h ⊢
  intro i hi
  apply hframe _ (List.getElem_mem _) _ (List.getElem_mem _) _ _ (h i hi)
  · rw [List.getLast?_eq_getElem?, List.getElem?_eq_getElem (by omega)]
    intro he
    have := (List.Nodup.getElem_inj_iff hnd).mp (Option.some.inj he)
    omega
  · rw [List.head?_eq_getElem?, List.getElem?_eq_getElem (by omega)]
    intro he
    have := (List.Nodup.getElem_inj_iff hnd).mp (Option.some.inj he)
    omega

theorem Represents.head_mem {r : CircularList K} {l : List K} {p : K} (h : Represents r l)
    (hp : r.head = some p) : ∃ rest, l = p :: rest := by
  rw [h.head_eq] at hp
  exact List.head?_eq_some_iff.mp hp

theorem isChain_eq_iterate {r : CircularList K} {a : K} {l : List K}
    (h : (a :: l).IsChain r.Linked) : a :: l = List.iterate r.next a (l.length + 1) := by
  induction l generalizing a with
  | nil => rfl
  | cons b l ih =>
    obtain ⟨⟨hnext, -⟩, hchain⟩ := List.isChain_cons_cons.mp h
    rw [List.length_cons, List.iterate, hnext, ← ih hchain]

/-- The links lead back to the head after as many steps as there are nodes. -/
theorem closed_iterate {r : CircularList K} {a : K} {l : List K} (h : Closed r (a :: l)) :
    r.next^[l.length + 1] a = a := by
  obtain ⟨hchain, hlast⟩ := closed_cons.mp h
  have hget : (a :: l).getLast? = some (r.next^[l.length] a) := by
    rw [isChain_eq_iterate hchain, List.getLast?_eq_getElem?, List.length_iterate,
      List.getElem?_iterate _ _ _ _ (Nat.sub_lt (Nat.succ_pos _) Nat.one_pos)]
    rfl
  rw [Function.iterate_succ_apply']
  exact (hlast _ hget).1

theorem Represents.length_le {r : CircularList K} {a : K} {l l' : List K}
    (h : Represents r (a :: l)) (h' : Represents r (a :: l')) : l.length ≤ l'.length := by
  by_contra hlt
  have hget : ∀ i < l.length + 1, (a :: l)[i]? = some (r.next^[i] a) := by
    intro i hi
    rw [isChain_eq_iterate (closed_cons.mp h.closed).1]
    exact List.getElem?_iterate _ _ _ _ hi
  have hzero := hget 0 (Nat.succ_pos _)
  have hsame := hget (l'.length + 1) (by omega)
  rw [closed_iterate h'.closed] at hsame
  have heq := (List.getElem?_inj (Nat.succ_pos _) h.nodup).mp (hzero.trans hsame.symm)
  omega

/-- A ring represents one list only. -/
theorem Represents.unique {r : CircularList K} {l l' : List K} (h : Represents r l)
    (h' : Represents r l') : l = l' := by
  have hhead := h.head_eq.symm.trans h'.head_eq
  cases l with
  | nil => exact (List.head?_eq_none_iff.mp hhead.symm).symm
  | cons a l =>
    obtain ⟨l', rfl⟩ := List.head?_eq_some_iff.mp hhead.symm
    have hlength := Nat.le_antisymm (h.length_le h') (h'.length_le h)
    rw [isChain_eq_iterate (closed_cons.mp h.closed).1,
      isChain_eq_iterate (closed_cons.mp h'.closed).1, hlength]

end Shape

section Correctness

variable {K : Type*} [DecidableEq K]

theorem closed_remove {r : CircularList K} {p : K} {l : List K} (h : Closed r (p :: l))
    (hnd : (p :: l).Nodup) : Closed (r.remove p) l := by
  cases l with
  | nil => exact List.isChain_nil
  | cons a l =>
    obtain ⟨hchain, hlast⟩ := closed_cons.mp h
    obtain ⟨⟨hnext, hprev⟩, htail⟩ := List.isChain_cons_cons.mp hchain
    have hz := List.getLast?_eq_some_getLast (List.cons_ne_nil a l)
    generalize (a :: l).getLast _ = z at hz
    obtain ⟨hzp, hpz⟩ := hlast z (by rw [List.getLast?_cons_cons]; exact hz)
    rw [closed_cons]
    constructor
    · apply isChain_frame htail hnd.of_cons
      rintro b - c - hb hc ⟨h1, h2⟩
      rw [hz] at hb
      refine ⟨?_, ?_⟩
      · show Function.update r.next (r.prev p) (r.next p) b = c
        rw [hpz, Function.update_of_ne (fun he => hb (congrArg _ he.symm)), h1]
      · show Function.update r.prev (r.next p) (r.prev p) c = b
        rw [hnext, Function.update_of_ne (fun he => hc (by simp [he])), h2]
    · intro w hw
      obtain rfl : z = w := Option.some.inj (hz.symm.trans hw)
      refine ⟨?_, ?_⟩
      · show Function.update r.next (r.prev p) (r.next p) z = a
        rw [hpz, Function.update_self, hnext]
      · show Function.update r.prev (r.next p) (r.prev p) a = z
        rw [hnext, Function.update_self, hpz]

theorem Represents.remove {r : CircularList K} {l : List K} {p : K} (h : Represents r l) (hp : p ∈ l) :
    Represents (r.remove p) (l.erase p) := by
  obtain ⟨xs, ys, rfl⟩ := List.append_of_mem hp
  have hpx : p ∉ xs := fun hx => (List.nodup_append.mp h.nodup).2.2 p hx p (by simp) rfl
  have hclosed : Closed (r.remove p) (xs ++ ys) := by
    apply closed_rotate
    apply closed_remove (closed_rotate xs (p :: ys) h.closed)
    exact (List.perm_append_comm.nodup_iff).mp h.nodup
  rw [List.erase_append_right _ hpx, List.erase_cons_head]
  refine ⟨?_, ?_, hclosed⟩
  · have hhead := h.head_eq
    cases xs with
    | cons x xs =>
      have hne : x ≠ p := fun he => hpx (by simp [he])
      simp only [List.cons_append, List.head?_cons] at hhead
      simp [CircularList.remove, hhead, hne]
    | nil =>
      rw [List.nil_append, List.head?_cons] at hhead
      obtain ⟨hchain, hlast⟩ := closed_cons.mp h.closed
      cases ys with
      | nil =>
        have hself := (hlast p (by simp)).1
        simp [CircularList.remove, hhead, hself]
      | cons y ys =>
        have hnext := (List.isChain_cons_cons.mp hchain).1.1
        have hne : y ≠ p := by
          rintro rfl
          simp at h
          exact absurd h.nodup (by simp)
        simp [CircularList.remove, hhead, hnext, hne]
  · have := h.nodup
    simp only [List.nodup_append, List.nodup_cons] at this ⊢
    exact ⟨this.1, this.2.1.2, fun a ha b hb => this.2.2 a ha b (by simp [hb])⟩

theorem Represents.addTail {r : CircularList K} {l : List K} {p : K} (h : Represents r l) (hp : p ∉ l) :
    Represents (r.addTail p) (l ++ [p]) := by
  have hhead := h.head_eq
  have hnd : (l ++ [p]).Nodup := by
    simp only [List.nodup_append, List.nodup_singleton, List.mem_singleton]
    exact ⟨h.nodup, trivial, fun a ha b hb he => hp (by rwa [← hb, ← he])⟩
  cases l with
  | nil =>
    simp only [List.head?_nil] at hhead
    refine ⟨by simp [CircularList.addTail, hhead], hnd, ?_⟩
    simp [Closed, Linked, CircularList.addTail, hhead]
  | cons a l =>
    simp only [List.head?_cons] at hhead
    have hpa : p ≠ a := fun he => hp (by simp [he])
    obtain ⟨hchain, hlast⟩ := closed_cons.mp h.closed
    have hz := List.getLast?_eq_some_getLast (List.cons_ne_nil a l)
    have hzl : (a :: l).getLast (List.cons_ne_nil a l) ∈ a :: l := List.getLast_mem _
    generalize (a :: l).getLast _ = z at hz hzl
    obtain ⟨hza, haz⟩ := hlast z hz
    have hpz : p ≠ z := fun he => hp (by rwa [he])
    have hnext : (r.addTail p).next = Function.update (Function.update r.next p a) z p := by
      simp [CircularList.addTail, hhead, haz]
    have hprev : (r.addTail p).prev = Function.update (Function.update r.prev p z) a p := by
      simp [CircularList.addTail, hhead, haz]
    refine ⟨by simp [CircularList.addTail, hhead], hnd, ?_⟩
    rw [List.cons_append, closed_cons, ← List.cons_append, List.isChain_append]
    refine ⟨⟨?_, by simp, fun w hw b hb => ?_⟩, fun w hw => ?_⟩
    · apply isChain_frame hchain h.nodup
      rintro b hb c hc hbz hca ⟨h1, h2⟩
      rw [hz] at hbz
      have hbp : b ≠ p := fun he => hp (by rwa [← he])
      have hcp : c ≠ p := fun he => hp (by rwa [← he])
      refine ⟨?_, ?_⟩
      · rw [hnext, Function.update_of_ne (fun he => hbz (congrArg _ he.symm)),
          Function.update_of_ne hbp, h1]
      · rw [hprev, Function.update_of_ne (fun he => hca (by simp [he])),
          Function.update_of_ne hcp, h2]
    · obtain rfl : z = w := Option.some.inj (hz.symm.trans hw)
      obtain rfl : p = b := by simpa using hb
      refine ⟨by rw [hnext, Function.update_self], ?_⟩
      rw [hprev, Function.update_of_ne hpa, Function.update_self]
    · rw [List.getLast?_concat] at hw
      obtain rfl : p = w := Option.some.inj hw
      refine ⟨?_, by rw [hprev, Function.update_self]⟩
      rw [hnext, Function.update_of_ne hpz, Function.update_self]

/-- Popping the head moves to the rest of the list. -/
theorem Represents.remove_head {r : CircularList K} {l : List K} {p : K} (h : Represents r (p :: l)) :
    Represents (r.remove p) l := by
  have := h.remove (List.mem_cons_self)
  rwa [List.erase_cons_head] at this

end Correctness

end CircularList
