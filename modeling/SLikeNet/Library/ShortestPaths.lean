import Mathlib.Data.Nat.Notation
import Mathlib.Logic.Function.Basic
import Mathlib.Order.Lattice

/-! Shortest paths by rounds: in every round the nodes next to the closest one that is left get a
cost, and where the costs come from can be followed back. -/

namespace ShortestPaths

variable {N : Type*}

/-- A list of nodes along edges, with the sum of their weights. -/
inductive Path (edge : N → N → ℕ → Prop) : N → N → List N → ℕ → Prop
  | nil (x : N) : Path edge x x [x] 0
  | cons {x y z : N} {w d : ℕ} {nodes : List N} :
      edge x y w → Path edge y z nodes d → Path edge x z (x :: nodes) (w + d)

/-- The costs after each of `count` rounds, and the nodes that were taken in them. -/
structure Rounds (edge : N → N → ℕ → Prop) (start : N) (infinite count : ℕ) (cost : ℕ → N → ℕ)
    (taken : ℕ → N) : Prop where
  init_start : cost 0 start = 0
  init : ∀ v, v ≠ start → cost 0 v = infinite
  taken_zero : 0 < count → taken 0 = start
  fresh : ∀ i < count, ∀ k < i, taken k ≠ taken i
  least : ∀ i < count, ∀ v, (∀ k < i, taken k ≠ v) → cost i (taken i) ≤ cost i v
  step : ∀ i < count, ∀ v, cost (i + 1) v = cost i v ∨
    ∃ w, edge (taken i) v w ∧ cost (i + 1) v = cost i (taken i) + w
  le : ∀ i < count, ∀ v, cost (i + 1) v ≤ cost i v
  relaxed : ∀ i < count, ∀ v w, edge (taken i) v w → cost (i + 1) v ≤ cost i (taken i) + w

/-- A node that can be taken next. -/
structure Next (count : ℕ) (cost : ℕ → N → ℕ) (taken : ℕ → N) (x : N) : Prop where
  fresh : ∀ k < count, taken k ≠ x
  least : ∀ v, (∀ k < count, taken k ≠ v) → cost count x ≤ cost count v

namespace Rounds

variable {edge : N → N → ℕ → Prop} {start : N} {infinite count : ℕ} {cost cost' : ℕ → N → ℕ}
  {taken taken' : ℕ → N}

theorem congr (h : Rounds edge start infinite count cost taken)
    (hcost : ∀ i ≤ count, cost' i = cost i) (htaken : ∀ i < count, taken' i = taken i) :
    Rounds edge start infinite count cost' taken' := by
  constructor
  · rw [hcost 0 (Nat.zero_le _)]
    exact h.init_start
  · rw [hcost 0 (Nat.zero_le _)]
    exact h.init
  · intro hpos
    rw [htaken 0 hpos]
    exact h.taken_zero hpos
  · intro i hi k hk
    rw [htaken i hi, htaken k (hk.trans hi)]
    exact h.fresh i hi k hk
  · intro i hi v hv
    rw [hcost i hi.le, htaken i hi]
    exact h.least i hi v fun k hk => by
      rw [← htaken k (hk.trans hi)]
      exact hv k hk
  · intro i hi v
    rw [hcost i hi.le, hcost (i + 1) hi, htaken i hi]
    exact h.step i hi v
  · intro i hi v
    rw [hcost i hi.le, hcost (i + 1) hi]
    exact h.le i hi v
  · intro i hi v w
    rw [hcost i hi.le, hcost (i + 1) hi, htaken i hi]
    exact h.relaxed i hi v w

/-- One more round. -/
theorem succ (h : Rounds edge start infinite count cost taken)
    (hnext : Next count cost taken (taken count)) (hzero : count = 0 → taken 0 = start)
    (hstep : ∀ v, cost (count + 1) v = cost count v ∨
      ∃ w, edge (taken count) v w ∧ cost (count + 1) v = cost count (taken count) + w)
    (hle : ∀ v, cost (count + 1) v ≤ cost count v)
    (hrelaxed : ∀ v w, edge (taken count) v w →
      cost (count + 1) v ≤ cost count (taken count) + w) :
    Rounds edge start infinite (count + 1) cost taken := by
  constructor
  · exact h.init_start
  · exact h.init
  · intro _
    rcases Nat.eq_zero_or_pos count with hcount | hpos
    · exact hzero hcount
    · exact h.taken_zero hpos
  · intro i hi
    rcases Nat.lt_succ_iff_lt_or_eq.mp hi with hlt | rfl
    · exact h.fresh i hlt
    · exact hnext.fresh
  · intro i hi
    rcases Nat.lt_succ_iff_lt_or_eq.mp hi with hlt | rfl
    · exact h.least i hlt
    · exact hnext.least
  · intro i hi
    rcases Nat.lt_succ_iff_lt_or_eq.mp hi with hlt | rfl
    · exact h.step i hlt
    · exact hstep
  · intro i hi
    rcases Nat.lt_succ_iff_lt_or_eq.mp hi with hlt | rfl
    · exact h.le i hlt
    · exact hle
  · intro i hi
    rcases Nat.lt_succ_iff_lt_or_eq.mp hi with hlt | rfl
    · exact h.relaxed i hlt
    · exact hrelaxed

theorem cost_le (h : Rounds edge start infinite count cost taken) {i j : ℕ} (hij : i ≤ j)
    (hj : j ≤ count) (v : N) : cost j v ≤ cost i v := by
  induction j, hij using Nat.le_induction with
  | base => exact Nat.le_refl _
  | succ j _ ih => exact (h.le j hj v).trans (ih (Nat.le_of_succ_le hj))

theorem cost_le_infinite (h : Rounds edge start infinite count cost taken) {j : ℕ}
    (hj : j ≤ count) (v : N) : cost j v ≤ infinite := by
  have hle := h.cost_le (Nat.zero_le j) hj v
  by_cases hv : v = start
  · subst hv
    rw [h.init_start] at hle
    exact hle.trans (Nat.zero_le _)
  · rwa [h.init v hv] at hle

/-- What a round takes is not farther than what is left after it. -/
theorem taken_le (h : Rounds edge start infinite count cost taken) {i : ℕ} (hi : i < count) {v : N}
    (hv : ∀ k < i, taken k ≠ v) : cost i (taken i) ≤ cost (i + 1) v := by
  rcases h.step i hi v with hsame | ⟨w, -, hnew⟩
  · rw [hsame]
    exact h.least i hi v hv
  · rw [hnew]
    exact Nat.le_add_right _ _

/-- The distances of the nodes that are taken grow. -/
theorem taken_mono (h : Rounds edge start infinite count cost taken) {i j : ℕ} (hij : i ≤ j)
    (hj : j < count) : cost i (taken i) ≤ cost j (taken j) := by
  induction j, hij using Nat.le_induction with
  | base => exact Nat.le_refl _
  | succ j hij ih =>
    have hlt : j < count := Nat.lt_of_succ_lt hj
    exact (ih hlt).trans (h.taken_le hlt fun k hk => h.fresh (j + 1) hj k (Nat.lt_succ_of_lt hk))

/-- The cost of a node that was taken is final. -/
theorem settled (h : Rounds edge start infinite count cost taken) {i j : ℕ} (hij : i ≤ j)
    (hj : j ≤ count) : cost j (taken i) = cost i (taken i) := by
  induction j, hij using Nat.le_induction with
  | base => rfl
  | succ j hij ih =>
    have hsame := ih (Nat.le_of_succ_le hj)
    rcases h.step j hj (taken i) with hstep | ⟨w, -, hnew⟩
    · rw [hstep, hsame]
    · have hle := h.le j hj (taken i)
      have hmono := h.taken_mono hij hj
      omega

/-- A node that was taken is not farther than one that was not. -/
theorem settled_le (h : Rounds edge start infinite count cost taken) {i : ℕ} (hi : i < count)
    {v : N} (hv : ∀ k < count, taken k ≠ v) : cost count (taken i) ≤ cost count v := by
  obtain ⟨last, rfl⟩ : ∃ last, count = last + 1 := ⟨count - 1, by omega⟩
  rw [h.settled hi.le (Nat.le_refl _)]
  exact (h.taken_mono (Nat.le_of_lt_succ hi) (Nat.lt_succ_self last)).trans
    (h.taken_le (Nat.lt_succ_self last) fun k hk => hv k (Nat.lt_succ_of_lt hk))

/-- Where nothing is left that is closer, no path is shorter than the costs. -/
theorem cost_le_of_path (h : Rounds edge start infinite count cost taken) {t : N}
    (hlast : ∀ x, (∀ k < count, taken k ≠ x) → cost count t ≤ cost count x) {x : N}
    {nodes : List N} {d : ℕ} (hpath : Path edge x t nodes d) :
    cost count t ≤ cost count x + d := by
  induction hpath with
  | nil => exact Nat.le_add_right _ _
  | @cons x y t w d nodes hedge _ ih =>
    by_cases hx : ∃ k < count, taken k = x
    · obtain ⟨k, hk, rfl⟩ := hx
      have hy := (h.cost_le hk (Nat.le_refl _) y).trans (h.relaxed k hk y w hedge)
      rw [← h.settled hk.le (Nat.le_refl _)] at hy
      have hrest := ih hlast
      omega
    · have hleft := hlast x fun k hk heq => hx ⟨k, hk, heq⟩
      omega

theorem cost_start (h : Rounds edge start infinite count cost taken) {j : ℕ} (hj : j ≤ count) :
    cost j start = 0 := by
  have hle := h.cost_le (Nat.zero_le j) hj start
  rw [h.init_start] at hle
  exact Nat.le_zero.mp hle

/-- A cost that is new in a round comes from the node that the round takes. -/
theorem edge_of_ne (h : Rounds edge start infinite count cost taken) {i : ℕ} (hi : i < count)
    {v : N} (hne : cost i v ≠ cost (i + 1) v) :
    ∃ w, edge (taken i) v w ∧ cost (i + 1) v = cost i (taken i) + w :=
  (h.step i hi v).resolve_left fun heq => hne heq.symm

/-- The first round gives a cost along an edge of the start. -/
theorem edge_of_first (h : Rounds edge start infinite count cost taken) (hpos : 0 < count) {v : N}
    (hv : v ≠ start) (hne : cost 1 v ≠ infinite) : edge start v (cost 1 v) := by
  obtain ⟨w, hedge, hcost⟩ := h.edge_of_ne hpos (by rw [h.init v hv]; exact Ne.symm hne)
  have hcost : cost 1 v = cost 0 (taken 0) + w := hcost
  rw [h.taken_zero hpos] at hedge hcost
  rw [h.init_start, Nat.zero_add] at hcost
  rwa [hcost]

end Rounds

end ShortestPaths
