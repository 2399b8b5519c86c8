import Mathlib.Data.List.Induction
import Mathlib.Data.List.Nodup
import Mathlib.Data.List.Perm.Basic
import Mathlib.Logic.Function.Basic

/-! Hash chains of indices whose keys are not stored with them: the key of an index is read
from the table that it points into, and may change there. Also the removal from an array by
moving its last entry into the gap. -/

namespace IndexChains

variable {K I B : Type*} [DecidableEq K] {key : I → K}

/-- The first index on a chain with this key. -/
def lookup (key : I → K) (chain : List I) (k : K) : Option I := chain.find? fun i => key i = k

/-- The chain without the first index with this key. -/
def unlink (key : I → K) (chain : List I) (k : K) : List I := chain.eraseP fun i => key i = k

theorem lookup_some {chain : List I} {k : K} {i : I} (h : lookup key chain k = some i) :
    i ∈ chain ∧ key i = k :=
  ⟨List.mem_of_find?_eq_some h, by simpa using List.find?_some h⟩

theorem lookup_eq_none_iff {chain : List I} {k : K} :
    lookup key chain k = none ↔ ∀ i ∈ chain, key i ≠ k := by
  simp [lookup, List.find?_eq_none]

theorem mem_of_mem_unlink {chain : List I} {k : K} {i : I} (h : i ∈ unlink key chain k) :
    i ∈ chain :=
  List.eraseP_sublist.subset h

theorem mem_unlink_of_ne {chain : List I} {k : K} {i : I} (hmem : i ∈ chain) (hne : key i ≠ k) :
    i ∈ unlink key chain k :=
  (List.mem_eraseP_of_neg (by simpa using hne)).mpr hmem

/-- Every index stands on the chain of its key, and no key stands on a chain twice. -/
structure WellKeyed (hash : K → B) (key : I → K) (chains : B → List I) : Prop where
  hash_eq : ∀ b, ∀ i ∈ chains b, hash (key i) = b
  keys_nodup : ∀ b, ((chains b).map key).Nodup

namespace WellKeyed

variable {hash : K → B} {chains : B → List I}

/-- The lookup finds an index as soon as it is there. -/
theorem lookup_eq (h : WellKeyed hash key chains) {b : B} {i : I} (hmem : i ∈ chains b) :
    lookup key (chains b) (key i) = some i := by
  cases hfind : lookup key (chains b) (key i) with
  | none => exact absurd rfl (lookup_eq_none_iff.mp hfind i hmem)
  | some j =>
    obtain ⟨hj, hkey⟩ := lookup_some hfind
    rw [List.inj_on_of_nodup_map (h.keys_nodup b) hj hmem hkey]

/-- What is left of a chain has other keys than the one that was unlinked. -/
theorem key_ne_of_mem_unlink (h : WellKeyed hash key chains) {b : B} {k : K} {i : I}
    (hmem : i ∈ unlink key (chains b) k) : key i ≠ k := by
  have hnodup := h.keys_nodup b
  generalize chains b = chain at hnodup hmem
  induction chain with
  | nil => exact absurd hmem List.not_mem_nil
  | cons j chain ih =>
    obtain ⟨hfresh, hrest⟩ := List.nodup_cons.mp hnodup
    by_cases hj : key j = k
    · rw [unlink, List.eraseP_cons_of_pos (by simpa using hj)] at hmem
      intro hi
      exact hfresh (List.mem_map.mpr ⟨i, hmem, hi.trans hj.symm⟩)
    · rw [unlink, List.eraseP_cons_of_neg (by simpa using hj)] at hmem
      rcases List.mem_cons.mp hmem with rfl | htail
      · exact hj
      · exact ih hrest htail

omit [DecidableEq K] in
/-- The key of an index that stands on no chain may change. -/
theorem rekey (h : WellKeyed hash key chains) {key' : I → K} {i : I}
    (hfree : ∀ b, i ∉ chains b) (hsame : ∀ j, j ≠ i → key' j = key j) :
    WellKeyed hash key' chains := by
  have hon : ∀ b, ∀ j ∈ chains b, key' j = key j := by
    intro b j hj
    refine hsame j ?_
    rintro rfl
    exact hfree b hj
  refine ⟨fun b j hj => ?_, fun b => ?_⟩
  · rw [hon b j hj]
    exact h.hash_eq b j hj
  · rw [List.map_congr_left (hon b)]
    exact h.keys_nodup b

variable [DecidableEq B]

theorem unlink (h : WellKeyed hash key chains) (b : B) (k : K) :
    WellKeyed hash key (Function.update chains b (IndexChains.unlink key (chains b) k)) where
  hash_eq c i hi := by
    rcases eq_or_ne c b with rfl | hc
    · rw [Function.update_self] at hi
      exact h.hash_eq c i (mem_of_mem_unlink hi)
    · rw [Function.update_of_ne hc] at hi
      exact h.hash_eq c i hi
  keys_nodup c := by
    rcases eq_or_ne c b with rfl | hc
    · rw [Function.update_self]
      exact (h.keys_nodup c).sublist (List.eraseP_sublist.map key)
    · rw [Function.update_of_ne hc]
      exact h.keys_nodup c

/-- To unlink a key from its chain is to take its index off all of them. -/
theorem mem_unlink_iff (h : WellKeyed hash key chains) {b : B} {k : K} {i : I} :
    i ∈ Function.update chains (hash k) (IndexChains.unlink key (chains (hash k)) k) b ↔
      i ∈ chains b ∧ key i ≠ k := by
  rcases eq_or_ne b (hash k) with rfl | hb
  · rw [Function.update_self]
    exact ⟨fun hi => ⟨mem_of_mem_unlink hi, h.key_ne_of_mem_unlink hi⟩,
      fun hi => mem_unlink_of_ne hi.1 hi.2⟩
  · rw [Function.update_of_ne hb]
    refine ⟨fun hi => ⟨hi, ?_⟩, fun hi => hi.1⟩
    rintro rfl
    exact hb (h.hash_eq b i hi).symm

omit [DecidableEq K] in
/-- An index may be linked to the chain of its key if the key is new there. -/
theorem link (h : WellKeyed hash key chains) {i : I}
    (hnew : ∀ j ∈ chains (hash (key i)), key j ≠ key i) :
    WellKeyed hash key
      (Function.update chains (hash (key i)) (chains (hash (key i)) ++ [i])) where
  hash_eq c j hj := by
    rcases eq_or_ne c (hash (key i)) with rfl | hc
    · rw [Function.update_self] at hj
      rcases List.mem_append.mp hj with hold | hlast
      · exact h.hash_eq _ j hold
      · rw [List.mem_singleton.mp hlast]
    · rw [Function.update_of_ne hc] at hj
      exact h.hash_eq c j hj
  keys_nodup c := by
    rcases eq_or_ne c (hash (key i)) with rfl | hc
    · rw [Function.update_self, List.map_append]
      refine List.nodup_append.mpr ⟨h.keys_nodup _, List.nodup_singleton _, ?_⟩
      intro k hk k' hk'
      obtain ⟨j, hj, rfl⟩ := List.mem_map.mp hk
      rw [List.map_singleton, List.mem_singleton] at hk'
      rw [hk']
      exact hnew j hj
    · rw [Function.update_of_ne hc]
      exact h.keys_nodup c

end WellKeyed

end IndexChains

namespace List

variable {α : Type*}

/-- The last entry takes the place of the one at `i`. -/
def swapRemove (l : List α) (i : ℕ) : List α :=
  match l.getLast? with
  | none => []
  | some a => (l.set i a).dropLast

theorem swapRemove_perm {l : List α} {i : ℕ} (hi : i < l.length) :
    (l.swapRemove i).Perm (l.eraseIdx i) := by
  induction l using List.reverseRecOn with
  | nil => exact absurd hi (Nat.not_lt_zero i)
  | append_singleton l a _ =>
    have hlast : (l ++ [a]).getLast? = some a := by simp
    rw [swapRemove, hlast]
    rw [length_append, length_singleton] at hi
    rcases Nat.lt_or_ge i l.length with hlt | hge
    · have hset : (l ++ [a]).set i a = l.set i a ++ [a] := set_append_left i a hlt
      have hlen : i < (l.set i a).length := by rwa [length_set]
      have hcons := getElem_cons_eraseIdx_perm hlen
      rw [getElem_set_self, eraseIdx_set_eq] at hcons
      show ((l ++ [a]).set i a).dropLast.Perm _
      rw [hset, dropLast_concat, eraseIdx_append_of_lt_length hlt]
      exact hcons.symm.trans (perm_append_singleton a _).symm
    · have hi' : i = l.length := by omega
      show ((l ++ [a]).set i a).dropLast.Perm _
      rw [hi', set_append_right _ _ (Nat.le_refl _), eraseIdx_append_of_length_le (Nat.le_refl _)]
      simp

end List
