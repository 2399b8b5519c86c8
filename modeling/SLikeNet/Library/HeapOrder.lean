import Mathlib.Data.List.Perm.Basic
import Mathlib.Order.Defs.Unbundled

/-! The order of an array-backed binary heap over an arbitrary relation, and
the two repairs that a single displaced entry needs. -/

namespace HeapOrder

variable {α : Type*} {le : α → α → Prop}

/-- Every entry comes after its parent. -/
def Ordered (le : α → α → Prop) (xs : List α) : Prop :=
  ∀ i a p, 0 < i → xs[i]? = some a → xs[(i - 1) / 2]? = some p → le p a

/-- Only the edge from entry `i` to its parent may be out of order. -/
structure UpReady (le : α → α → Prop) (xs : List α) (i : Nat) : Prop where
  rest : ∀ j a p, 0 < j → j ≠ i → xs[j]? = some a → xs[(j - 1) / 2]? = some p → le p a
  skip : ∀ j a g, 0 < i → 0 < j → (j - 1) / 2 = i → xs[j]? = some a →
    xs[(i - 1) / 2]? = some g → le g a

/-- Only the edges from entry `i` to its children may be out of order. -/
structure DownReady (le : α → α → Prop) (xs : List α) (i : Nat) : Prop where
  rest : ∀ j a p, 0 < j → (j - 1) / 2 ≠ i → xs[j]? = some a → xs[(j - 1) / 2]? = some p → le p a
  skip : ∀ j a g, 0 < i → 0 < j → (j - 1) / 2 = i → xs[j]? = some a →
    xs[(i - 1) / 2]? = some g → le g a

theorem getElem?_swap {xs : List α} {i j : Nat} (hi : i < xs.length) (hj : j < xs.length)
    (k : Nat) : (xs.swap i j)[k]? = if k = i then xs[j]? else if k = j then xs[i]? else xs[k]? := by
  rw [List.swap_eq_of_lt hi hj]
  simp only [List.getElem?_set, List.length_set]
  by_cases hkj : k = j
  · subst hkj
    by_cases hki : k = i <;> simp [hki, hi, hj]
  · by_cases hki : k = i
    · subst hki
      simp [Ne.symm hkj, hi, hj]
    · simp [Ne.symm hkj, Ne.symm hki, hkj, hki]

theorem getElem?_lt {xs : List α} {i : Nat} {a : α} (h : xs[i]? = some a) : i < xs.length :=
  (List.getElem?_eq_some_iff.mp h).1

theorem Ordered.nil : Ordered le ([] : List α) := by
  intro i a p _ ha
  simp at ha

theorem Ordered.up_append {xs : List α} (h : Ordered le xs) (a : α) :
    UpReady le (xs ++ [a]) xs.length := by
  constructor
  · intro j b p hj hne hb hp
    have hlt : j < xs.length := by
      have := getElem?_lt hb
      simp only [List.length_append, List.length_singleton] at this
      omega
    rw [List.getElem?_append_left hlt] at hb
    rw [List.getElem?_append_left (by omega)] at hp
    exact h j b p hj hb hp
  · intro j b g _ hj hpar hb _
    have := getElem?_lt hb
    simp only [List.length_append, List.length_singleton] at this
    omega

/-- An entry that is not before its parent needs no further repair. -/
theorem UpReady.ordered {xs : List α} {i : Nat} (h : UpReady le xs i)
    (hi : ∀ a p, 0 < i → xs[i]? = some a → xs[(i - 1) / 2]? = some p → le p a) :
    Ordered le xs := by
  intro j a p hj ha hp
  by_cases hji : j = i
  · subst hji
    exact hi a p hj ha hp
  · exact h.rest j a p hj hji ha hp

theorem UpReady.swap [IsTrans α le] {xs : List α} {i : Nat} {a p : α} (h : UpReady le xs i)
    (hi : 0 < i) (ha : xs[i]? = some a) (hp : xs[(i - 1) / 2]? = some p) (hle : le a p) :
    UpReady le (xs.swap i ((i - 1) / 2)) ((i - 1) / 2) := by
  have hil := getElem?_lt ha
  have hpl := getElem?_lt hp
  constructor
  · intro j b q hj hne hb hq
    rw [getElem?_swap hil hpl] at hb hq
    by_cases hji : j = i
    · -- the old parent now sits below the moved entry
      subst hji
      rw [if_pos rfl] at hb
      rw [if_neg (by omega), if_pos rfl] at hq
      obtain rfl : p = b := Option.some.inj (hp.symm.trans hb)
      obtain rfl : a = q := Option.some.inj (ha.symm.trans hq)
      exact hle
    · rw [if_neg hji, if_neg hne] at hb
      by_cases hpi : (j - 1) / 2 = i
      · rw [if_pos hpi] at hq
        obtain rfl : p = q := Option.some.inj (hp.symm.trans hq)
        exact h.skip j b p hi hj hpi hb hp
      · by_cases hpp : (j - 1) / 2 = (i - 1) / 2
        · rw [if_neg hpi, if_pos hpp] at hq
          obtain rfl : a = q := Option.some.inj (ha.symm.trans hq)
          have hpb := h.rest j b p hj hji hb (by rw [hpp]; exact hp)
          exact trans_of le hle hpb
        · rw [if_neg hpi, if_neg hpp] at hq
          exact h.rest j b q hj hji hb hq
  · intro j b g hpos hj hpar hb hg
    rw [getElem?_swap hil hpl] at hb hg
    rw [if_neg (by omega), if_neg (by omega)] at hg
    have hgp := h.rest ((i - 1) / 2) p g hpos (by omega) hp hg
    by_cases hji : j = i
    · subst hji
      rw [if_pos rfl] at hb
      obtain rfl : p = b := Option.some.inj (hp.symm.trans hb)
      exact hgp
    · rw [if_neg hji, if_neg (by omega)] at hb
      exact trans_of le hgp (h.rest j b p hj hji hb (by rw [hpar]; exact hp))

/-- Replacing the root of a heap and cutting its last entry leaves only the
root to repair. -/
theorem Ordered.down_set_dropLast {xs : List α} (h : Ordered le xs) (b : α) :
    DownReady le (xs.set 0 b).dropLast 0 := by
  have hget : ∀ j a, 0 < j → (xs.set 0 b).dropLast[j]? = some a → xs[j]? = some a := by
    intro j a hj ha
    rw [List.getElem?_dropLast] at ha
    split at ha
    · rwa [List.getElem?_set_ne (by omega)] at ha
    · simp at ha
  constructor
  · intro j a p hj hpar ha hp
    exact h j a p hj (hget j a hj ha) (hget _ p (by omega) hp)
  · intro j a g hi
    omega

theorem DownReady.ordered {xs : List α} {i : Nat} (h : DownReady le xs i)
    (hi : ∀ j a b, 0 < j → (j - 1) / 2 = i → xs[j]? = some a → xs[i]? = some b → le b a) :
    Ordered le xs := by
  intro j a p hj ha hp
  by_cases hpar : (j - 1) / 2 = i
  · exact hi j a p hj hpar ha (by rw [← hpar]; exact hp)
  · exact h.rest j a p hj hpar ha hp

/-- Exchanging the displaced entry with its smallest child moves the repair to
that child. -/
theorem DownReady.swap {xs : List α} {i c : Nat} {a b : α} (h : DownReady le xs i)
    (hc : 0 < c) (hpar : (c - 1) / 2 = i) (ha : xs[c]? = some a) (hb : xs[i]? = some b)
    (hle : le a b) (hmin : ∀ j d, 0 < j → (j - 1) / 2 = i → xs[j]? = some d → le a d) :
    DownReady le (xs.swap c i) c := by
  have hcl := getElem?_lt ha
  have hil := getElem?_lt hb
  constructor
  · intro j d p hj hne hd hp
    rw [getElem?_swap hcl hil] at hd hp
    by_cases hjc : j = c
    · subst hjc
      rw [if_pos rfl] at hd
      rw [if_neg (by omega), if_pos hpar] at hp
      obtain rfl : b = d := Option.some.inj (hb.symm.trans hd)
      obtain rfl : a = p := Option.some.inj (ha.symm.trans hp)
      exact hle
    · rw [if_neg hjc] at hd
      rw [if_neg hne] at hp
      by_cases hji : j = i
      · subst hji
        rw [if_pos rfl] at hd
        rw [if_neg (by omega)] at hp
        obtain rfl : a = d := Option.some.inj (ha.symm.trans hd)
        exact h.skip c a p hj hc hpar ha hp
      · rw [if_neg hji] at hd
        by_cases hpi : (j - 1) / 2 = i
        · rw [if_pos hpi] at hp
          obtain rfl : a = p := Option.some.inj (ha.symm.trans hp)
          exact hmin j d hj hpi hd
        · rw [if_neg hpi] at hp
          exact h.rest j d p hj hpi hd hp
  · intro j d g _ hj hparj hd hg
    rw [getElem?_swap hcl hil] at hd hg
    rw [if_neg (by omega), if_neg (by omega)] at hd
    rw [if_neg (by omega), if_pos hpar] at hg
    obtain rfl : a = g := Option.some.inj (ha.symm.trans hg)
    exact h.rest j d a hj (by omega) hd (by rw [hparj]; exact ha)

/-- The root of a heap comes before every entry. -/
theorem Ordered.root_le [Std.Refl le] [IsTrans α le] {xs : List α} {r : α}
    (h : Ordered le xs) (hr : xs[0]? = some r) {i : Nat} {a : α} (ha : xs[i]? = some a) :
    le r a := by
  induction i using Nat.strongRecOn generalizing a with
  | ind i ih =>
    by_cases hi : i = 0
    · subst hi
      obtain rfl : r = a := Option.some.inj (hr.symm.trans ha)
      exact Std.Refl.refl r
    · have hlt : (i - 1) / 2 < xs.length := by
        have := getElem?_lt ha
        omega
      have hp := List.getElem?_eq_getElem hlt
      exact trans_of le (ih _ (by omega) hp) (h i a _ (by omega) ha hp)

theorem Ordered.root_le_of_mem [Std.Refl le] [IsTrans α le] {xs : List α} {r a : α}
    (h : Ordered le xs) (hr : xs[0]? = some r) (ha : a ∈ xs) : le r a := by
  obtain ⟨i, hi⟩ := List.mem_iff_getElem?.mp ha
  exact h.root_le hr hi

end HeapOrder
