import Mathlib.Algebra.BigOperators.Group.Finset.Piecewise
import Mathlib.Algebra.Group.Action.Defs
import Mathlib.Algebra.Order.BigOperators.Group.Finset

/-! `n` things in `k` bins as evenly as possible, and what adding, removing and moving one of them
does. -/

namespace EvenCounts

variable {k n : ℕ} {counts : ℕ → ℕ}

/-- The counts of two bins differ by one at most. -/
def Even (k : ℕ) (counts : ℕ → ℕ) : Prop :=
  ∀ i < k, ∀ j < k, counts i ≤ counts j + 1

/-- The counts of the bins when one thing is taken out, put in or moved. -/
def less (counts : ℕ → ℕ) (source : ℕ) (i : ℕ) : ℕ :=
  if i = source then counts i - 1 else counts i

def more (counts : ℕ → ℕ) (target : ℕ) (i : ℕ) : ℕ :=
  if i = target then counts i + 1 else counts i

def moved (counts : ℕ → ℕ) (source target : ℕ) (i : ℕ) : ℕ :=
  if i = source then counts i - 1 else if i = target then counts i + 1 else counts i

/-- If every bin has at least the average and none has two more, the counts are even. -/
theorem even_of_level (hlow : ∀ i < k, n / k ≤ counts i) (hhigh : ∀ i < k, counts i ≤ n / k + 1) :
    Even k counts := by
  intro i hi j hj
  have hle := hhigh i hi
  have hge := hlow j hj
  omega

section Sums

variable (hsum : ∑ i ∈ Finset.range k, counts i = n)

include hsum

theorem le_sum_of_le {a e j : ℕ} (hj : j < k) (hle : ∀ i < k, a ≤ counts i)
    (hmore : a + e ≤ counts j) : k * a + e ≤ n := by
  have hbelow : ∑ i ∈ Finset.range k, (a + if i = j then e else 0) ≤ n := by
    rw [← hsum]
    apply Finset.sum_le_sum
    intro i hi
    by_cases hij : i = j
    · rw [if_pos hij, hij]
      exact hmore
    · rw [if_neg hij]
      exact hle i (Finset.mem_range.mp hi)
  rwa [Finset.sum_add_distrib, Finset.sum_const, Finset.card_range, smul_eq_mul,
    Finset.sum_ite_eq', if_pos (Finset.mem_range.mpr hj)] at hbelow

theorem sum_le_of_le {a e j : ℕ} (hj : j < k) (hle : ∀ i < k, counts i ≤ a)
    (hless : counts j + e ≤ a) : n + e ≤ k * a := by
  have habove : ∑ i ∈ Finset.range k, (counts i + if i = j then e else 0) ≤ k * a := by
    have hconst : ∑ _i ∈ Finset.range k, a = k * a := by
      rw [Finset.sum_const, Finset.card_range, smul_eq_mul]
    rw [← hconst]
    apply Finset.sum_le_sum
    intro i hi
    by_cases hij : i = j
    · rw [if_pos hij, hij]
      exact hless
    · rw [if_neg hij]
      exact hle i (Finset.mem_range.mp hi)
  rwa [Finset.sum_add_distrib, Finset.sum_ite_eq', if_pos (Finset.mem_range.mpr hj), hsum]
    at habove

theorem Even.div_le (h : Even k counts) {i : ℕ} (hi : i < k) : n / k ≤ counts i := by
  by_contra hlt
  have hle := sum_le_of_le hsum hi (a := n / k) (e := 1)
    (fun j hj => by have hj' := h j hj i hi; omega) (by omega)
  have hdiv := Nat.mul_div_le n k
  omega

theorem Even.le_div (h : Even k counts) {i : ℕ} (hi : i < k) : counts i ≤ n / k + 1 := by
  by_contra hlt
  have hle := le_sum_of_le hsum hi (a := n / k + 1) (e := 1)
    (fun j hj => by have hj' := h i hi j hj; omega) (by omega)
  have hdiv := Nat.div_add_mod n k
  have hmod := Nat.mod_lt n (by omega : 0 < k)
  rw [Nat.mul_add, Nat.mul_one] at hle
  omega

/-- Where the average is a whole number, every bin of an even split has it. -/
theorem eq_div_of_mod_zero (hlow : ∀ i < k, n / k ≤ counts i) (hmod : n % k = 0) {i : ℕ}
    (hi : i < k) : counts i = n / k := by
  by_contra hne
  have hge := hlow i hi
  have hle := le_sum_of_le hsum hi (e := 1) hlow (by omega)
  have hdiv := Nat.div_add_mod n k
  omega

theorem Even.eq_div (h : Even k counts) (hmod : n % k = 0) {i : ℕ} (hi : i < k) :
    counts i = n / k :=
  eq_div_of_mod_zero hsum (fun _ hj => h.div_le hsum hj) hmod hi

/-- One thing more than a whole average goes to one bin. -/
theorem le_div_of_mod_one (hlow : ∀ i < k, n / k ≤ counts i) (hmod : n % k = 1) {i : ℕ}
    (hi : i < k) : counts i ≤ n / k + 1 := by
  by_contra hlt
  have hle := le_sum_of_le hsum hi (e := 2) hlow (by omega)
  have hdiv := Nat.div_add_mod n k
  omega

theorem le_div_of_least {j : ℕ} (hj : j < k) (hleast : ∀ i < k, counts j ≤ counts i) :
    counts j ≤ n / k := by
  have hle := le_sum_of_le hsum hj (e := 0) hleast (by omega)
  rw [Nat.le_div_iff_mul_le (by omega), Nat.mul_comm]
  omega

/-- An even split stays even when one thing is put in a bin with the average at most. -/
theorem Even.more (h : Even k counts) {j : ℕ} (hj : j < k) (hle : counts j ≤ n / k) :
    Even k (EvenCounts.more counts j) := by
  intro i hi i' hi'
  have hii := h i hi i' hi'
  have hlow := h.div_le hsum hi'
  simp only [EvenCounts.more]
  split <;> split <;> subst_vars <;> omega

/-- An even split stays even when one thing is taken out of a largest bin. -/
theorem Even.less (h : Even k counts) {j : ℕ} (hj : j < k)
    (hlargest : n % k = 0 ∨ n / k < counts j) : Even k (EvenCounts.less counts j) := by
  intro i hi i' hi'
  have hii := h i hi i' hi'
  have hle : counts i ≤ counts j := by
    rcases hlargest with hmod | hlt
    · rw [h.eq_div hsum hmod hi, h.eq_div hsum hmod hj]
    · have hhigh := h.le_div hsum hi
      omega
  simp only [EvenCounts.less]
  split <;> split <;> subst_vars <;> omega

/-- An even split stays even when one thing moves from a larger bin to a smaller one. -/
theorem Even.moved (h : Even k counts) {source target : ℕ} (hsource : source < k)
    (htarget : target < k) (hlt : n / k < counts source) (hle : counts target ≤ n / k) :
    Even k (EvenCounts.moved counts source target) := by
  intro i hi i' hi'
  have hii := h i hi i' hi'
  have hlow := h.div_le hsum hi'
  have hhigh := h.le_div hsum hi
  have hhigh' := h.le_div hsum hsource
  have hlow' := h.div_le hsum htarget
  simp only [EvenCounts.moved]
  repeat' split
  all_goals subst_vars; omega

end Sums

theorem div_mod_pred (hk : 0 < k) (h : 0 < n % k) :
    (n - 1) / k = n / k ∧ (n - 1) % k = n % k - 1 := by
  have hdiv := Nat.div_add_mod n k
  have hmod := Nat.mod_lt n hk
  apply (Nat.div_mod_unique hk).mpr
  constructor <;> omega

theorem mod_pred_of_mod_zero (hk : 0 < k) (hn : 0 < n) (h : n % k = 0) :
    (n - 1) / k + 1 = n / k ∧ (n - 1) % k = k - 1 := by
  have hdiv := Nat.div_add_mod n k
  have hpos : 0 < n / k := by
    by_contra hzero
    have hmul : k * (n / k) = 0 := by
      rw [Nat.eq_zero_of_not_pos hzero, Nat.mul_zero]
    omega
  obtain ⟨m, hm⟩ : ∃ m, n / k = m + 1 := ⟨n / k - 1, by omega⟩
  have hunique : (n - 1) / k = m ∧ (n - 1) % k = k - 1 := by
    apply (Nat.div_mod_unique hk).mpr
    rw [hm, Nat.mul_add, Nat.mul_one] at hdiv
    constructor <;> omega
  omega

end EvenCounts
