import Mathlib.Data.List.Sort
import Mathlib.Order.Defs.LinearOrder

/-! Maps as lists of keys with their values, in the order of the keys. -/

namespace SortedMap

variable {K D : Type*} [LinearOrder K]

def get? : List (K × D) → K → Option D
  | [], _ => none
  | (k, d) :: m, key => if key = k then some d else get? m key

/-- The value of a key is replaced, or put where the key belongs. -/
def set : List (K × D) → K → D → List (K × D)
  | [], key, data => [(key, data)]
  | (k, d) :: m, key, data =>
    if key < k then (key, data) :: (k, d) :: m
    else if key = k then (key, data) :: m
    else (k, d) :: set m key data

def delete (m : List (K × D)) (key : K) : List (K × D) := m.filter fun entry => entry.1 ≠ key

def Has (m : List (K × D)) (key : K) : Prop := key ∈ m.map Prod.fst

instance (m : List (K × D)) (key : K) : Decidable (Has m key) :=
  inferInstanceAs (Decidable (key ∈ m.map Prod.fst))

def Sorted (m : List (K × D)) : Prop := (m.map Prod.fst).Pairwise (· < ·)

variable {m : List (K × D)} {key k : K} {data d : D}

theorem get?_set (m : List (K × D)) (key : K) (data : D) (k : K) :
    get? (set m key data) k = if k = key then some data else get? m k := by
  induction m with
  | nil => rfl
  | cons entry m ih =>
    obtain ⟨k', d⟩ := entry
    rw [set]
    split
    · rfl
    · split
      · rename_i heq
        subst heq
        simp only [get?]
        split <;> rfl
      · rename_i hne
        simp only [get?, ih]
        split
        · rename_i heq
          rw [if_neg (by rw [heq]; exact Ne.symm hne)]
        · rfl

theorem get?_delete (m : List (K × D)) (key k : K) :
    get? (delete m key) k = if k = key then none else get? m k := by
  induction m with
  | nil => simp [delete, get?]
  | cons entry m ih =>
    obtain ⟨k', d⟩ := entry
    rw [delete] at ih ⊢
    by_cases hkey : k' = key
    · rw [List.filter_cons_of_neg (by simpa using hkey), ih, get?]
      split
      · rfl
      · rename_i hne
        rw [if_neg (by rw [hkey]; exact hne)]
    · rw [List.filter_cons_of_pos (by simpa using hkey), get?, get?, ih]
      split
      · rename_i heq
        rw [if_neg (by rw [heq]; exact hkey)]
      · rfl

theorem has_iff : Has m k ↔ ∃ d, get? m k = some d := by
  induction m with
  | nil => simp [Has, get?]
  | cons entry m ih =>
    obtain ⟨k', d⟩ := entry
    rw [Has] at ih ⊢
    rw [List.map_cons, List.mem_cons, get?, ih]
    by_cases hk : k = k'
    · simp [hk]
    · simp [hk]

theorem has_set : Has (set m key data) k ↔ k = key ∨ Has m k := by
  rw [has_iff, has_iff, get?_set]
  by_cases hk : k = key
  · simp [hk]
  · simp [hk]

theorem Sorted.set (h : Sorted m) (key : K) (data : D) : Sorted (set m key data) := by
  induction m with
  | nil => exact List.pairwise_singleton _ _
  | cons entry m ih =>
    obtain ⟨k, d⟩ := entry
    obtain ⟨hhead, htail⟩ := List.pairwise_cons.mp h
    rw [SortedMap.set]
    split
    · rename_i hlt
      refine List.pairwise_cons.mpr ⟨fun k' hk' => ?_, h⟩
      rcases List.mem_cons.mp hk' with rfl | hk'
      · exact hlt
      · exact hlt.trans (hhead k' hk')
    · split
      · rename_i heq
        subst heq
        exact h
      · rename_i hge hne
        refine List.pairwise_cons.mpr ⟨fun k' hk' => ?_, ih htail⟩
        rcases has_set.mp hk' with rfl | hk'
        · exact lt_of_le_of_ne (le_of_not_gt hge) (Ne.symm hne)
        · exact hhead k' hk'

theorem Sorted.delete (h : Sorted m) (key : K) : Sorted (delete m key) :=
  h.sublist (List.filter_sublist.map _)

theorem Sorted.nodup (h : Sorted m) : (m.map Prod.fst).Nodup := h.imp ne_of_lt

theorem mem_of_get? (h : get? m k = some d) : (k, d) ∈ m := by
  induction m with
  | nil => cases h
  | cons entry m ih =>
    obtain ⟨k', d'⟩ := entry
    rw [get?] at h
    split at h
    · rename_i heq
      obtain rfl := Option.some.inj h
      rw [heq]
      exact List.mem_cons_self
    · exact List.mem_cons_of_mem _ (ih h)

theorem Sorted.get?_of_mem (h : Sorted m) (hmem : (k, d) ∈ m) : get? m k = some d := by
  induction m with
  | nil => simp at hmem
  | cons entry m ih =>
    obtain ⟨k', d'⟩ := entry
    obtain ⟨hhead, htail⟩ := List.pairwise_cons.mp h
    rw [get?]
    rcases List.mem_cons.mp hmem with heq | hrest
    · obtain ⟨rfl, rfl⟩ := Prod.mk.inj heq
      rw [if_pos rfl]
    · rw [if_neg (hhead k (List.mem_map_of_mem hrest)).ne', ih htail hrest]

end SortedMap
