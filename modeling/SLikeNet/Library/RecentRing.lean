import Mathlib.Data.List.FinRange
import Mathlib.Logic.Function.Basic

/-! A ring of `n` cells for the newest entries of a history: entry `k` is written into cell
`k % n`, over entry `k - n`. -/

namespace RecentRing

variable {α : Type*} {n : ℕ}

/-- The last `n` entries. -/
def recent (n : ℕ) (history : List α) : List α := history.drop (history.length - n)

theorem recent_map {β : Type*} (f : α → β) (history : List α) :
    recent n (history.map f) = (recent n history).map f := by
  rw [recent, recent, List.length_map, List.map_drop]

/-- The cells hold the recent entries of the history, and `blank` where none was written yet. -/
structure Holds (cells : Fin n → α) (blank : α) (next : Fin n) (history : List α) : Prop where
  next_eq : next.val = history.length % n
  cell_eq : ∀ (j : Fin n) k (hk : k < history.length), history.length ≤ k + n → j.val = k % n →
    cells j = history[k]
  unwritten : ∀ j : Fin n, history.length ≤ j.val → cells j = blank

theorem holds_nil {blank : α} {next : Fin n} (hnext : next.val = 0) :
    Holds (fun _ => blank) blank next [] where
  next_eq := by rw [hnext, List.length_nil, Nat.zero_mod]
  cell_eq _ _ hk := absurd hk (Nat.not_lt_zero _)
  unwritten _ _ := rfl

/-- Entries less than a whole turn apart stand in different cells. -/
theorem mod_ne_of_lt {k l : ℕ} (hkl : k < l) (hturn : l < k + n) : k % n ≠ l % n := by
  intro heq
  have hdvd : n ∣ l - k := Nat.dvd_of_mod_eq_zero (Nat.sub_mod_eq_zero_of_mod_eq heq.symm)
  have hle := Nat.le_of_dvd (by omega) hdvd
  omega

theorem Holds.record {cells : Fin n → α} {blank : α} {next next' : Fin n} {history : List α}
    (h : Holds cells blank next history) (hnext : next'.val = (next.val + 1) % n) (x : α) :
    Holds (Function.update cells next x) blank next' (history ++ [x]) := by
  have hn : 0 < n := Nat.lt_of_le_of_lt (Nat.zero_le _) next.isLt
  have hlength : (history ++ [x]).length = history.length + 1 := List.length_append
  refine ⟨?_, fun j k hk hrecent hj => ?_, fun j hj => ?_⟩
  · rw [hnext, h.next_eq, hlength, Nat.mod_add_mod]
  · rw [hlength] at hk hrecent
    rcases Nat.lt_succ_iff_lt_or_eq.mp hk with hold | rfl
    · have hne : j ≠ next := by
        intro heq
        refine mod_ne_of_lt hold (n := n) (by omega) ?_
        rw [← hj, ← h.next_eq, heq]
      rw [Function.update_of_ne hne, h.cell_eq j k hold (by omega) hj]
      exact (List.getElem_append_left hold).symm
    · have heq : j = next := Fin.ext (hj.trans h.next_eq.symm)
      rw [heq, Function.update_self]
      exact (List.getElem_concat_length rfl _).symm
  · rw [hlength] at hj
    have hne : j ≠ next := by
      intro heq
      have hnext := h.next_eq
      rw [← heq, Nat.mod_eq_of_lt (by omega)] at hnext
      omega
    rw [Function.update_of_ne hne, h.unwritten j (by omega)]

theorem mem_recent_iff {history : List α} {x : α} :
    x ∈ recent n history ↔
      ∃ k, ∃ hk : k < history.length, history.length ≤ k + n ∧ history[k] = x := by
  unfold recent
  rw [List.mem_iff_getElem]
  constructor
  · rintro ⟨i, hi, rfl⟩
    rw [List.length_drop] at hi
    exact ⟨history.length - n + i, by omega, by omega, (List.getElem_drop).symm⟩
  · rintro ⟨k, hk, hrecent, rfl⟩
    refine ⟨k - (history.length - n), by rw [List.length_drop]; omega, ?_⟩
    rw [List.getElem_drop]
    congr 1
    omega

/-- A cell that was written holds a recent entry. -/
theorem Holds.cell_mem {cells : Fin n → α} {blank : α} {next : Fin n} {history : List α}
    (h : Holds cells blank next history) {j : Fin n} (hj : j.val < history.length) :
    cells j ∈ recent n history := by
  have hn : 0 < n := Nat.lt_of_le_of_lt (Nat.zero_le _) j.isLt
  -- The newest entry whose number is `j` up to whole turns.
  have hdivmod := Nat.div_add_mod (history.length - 1 - j.val) n
  have hmod := Nat.mod_lt (history.length - 1 - j.val) hn
  have hk : j.val + n * ((history.length - 1 - j.val) / n) < history.length := by omega
  refine mem_recent_iff.mpr ⟨_, hk, by omega, (h.cell_eq j _ hk (by omega) ?_).symm⟩
  rw [Nat.add_mul_mod_self_left, Nat.mod_eq_of_lt j.isLt]

/-- A recent entry stands in a cell that was written. -/
theorem Holds.mem_cell {cells : Fin n → α} {blank : α} {next : Fin n} {history : List α}
    (h : Holds cells blank next history) {x : α} (hx : x ∈ recent n history) :
    ∃ j : Fin n, j.val < history.length ∧ cells j = x := by
  have hn : 0 < n := Nat.lt_of_le_of_lt (Nat.zero_le _) next.isLt
  obtain ⟨k, hk, hrecent, rfl⟩ := mem_recent_iff.mp hx
  refine ⟨⟨k % n, Nat.mod_lt k hn⟩, ?_, h.cell_eq _ k hk hrecent rfl⟩
  exact Nat.lt_of_le_of_lt (Nat.mod_le k n) hk

end RecentRing
