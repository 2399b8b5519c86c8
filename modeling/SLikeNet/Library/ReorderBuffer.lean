import Mathlib.Data.List.Basic
import Mathlib.Order.WithBot

/-! A buffer that puts messages back in order: every message has a number, and a
rank among the messages of that number, whose last one, of rank `⊤`, closes it.
Messages leave in order while their number is the next one. -/

namespace ReorderBuffer

variable {M : Type*} (number : M → ℕ) (rank : M → WithTop ℕ)

def Precedes (a b : M) : Prop := number a < number b ∨ number a = number b ∧ rank a < rank b

/-- The next number, the messages that left in order, and the ones that stay. -/
structure Released (M : Type*) where
  next : ℕ
  out : List M
  rest : List M

def release (next : ℕ) : List M → Released M
  | [] => ⟨next, [], []⟩
  | m :: ms =>
    if number m = next then
      let r := release (if rank m = ⊤ then next + 1 else next) ms
      ⟨r.next, m :: r.out, r.rest⟩
    else ⟨next, [], m :: ms⟩

/-- The buffer holds its messages in strict order. -/
def Sorted (ms : List M) : Prop := ms.Pairwise (Precedes number rank)

variable {number rank}

theorem release_append (next : ℕ) (ms : List M) :
    (release number rank next ms).out ++ (release number rank next ms).rest = ms := by
  induction ms generalizing next with
  | nil => rfl
  | cons m ms ih =>
    simp only [release]
    split
    · simp [ih]
    · rfl

/-- A buffer whose messages are not overdue stays so once its head, of the next
number, has left. -/
theorem Sorted.le_of_release {next : ℕ} {m : M} {ms : List M}
    (hs : Sorted number rank (m :: ms)) (hm : number m = next) :
    ∀ b ∈ ms, (if rank m = ⊤ then next + 1 else next) ≤ number b := by
  intro b hb
  have h := (List.pairwise_cons.mp hs).1 b hb
  split
  · rename_i htop
    rcases h with h | ⟨_, h⟩
    · omega
    · exact absurd (htop ▸ h) not_top_lt
  · rcases h with h | ⟨h, _⟩ <;> omega

/-- What stays belongs to numbers beyond the next one. -/
theorem Sorted.lt_of_mem_rest {next : ℕ} {ms : List M} (hs : Sorted number rank ms)
    (hle : ∀ m ∈ ms, next ≤ number m) :
    ∀ m ∈ (release number rank next ms).rest, (release number rank next ms).next < number m := by
  induction ms generalizing next with
  | nil => simp [release]
  | cons b bs ih =>
    simp only [release]
    split
    · rename_i hb
      exact ih (List.pairwise_cons.mp hs).2 (hs.le_of_release hb)
    · rename_i hb
      intro m hm
      change next < number m
      have hlt : next < number b := lt_of_le_of_ne (hle b (by simp)) (Ne.symm hb)
      rcases List.mem_cons.mp hm with rfl | hm
      · exact hlt
      · rcases (List.pairwise_cons.mp hs).1 m hm with h | ⟨h, _⟩ <;> omega

theorem le_release_next (next : ℕ) (ms : List M) : next ≤ (release number rank next ms).next := by
  induction ms generalizing next with
  | nil => exact le_rfl
  | cons m ms ih =>
    simp only [release]
    split
    · refine le_trans ?_ (ih _)
      split <;> omega
    · exact le_rfl

/-- Every released message has a number between the old next one and the new. -/
theorem number_le_of_mem_out {next : ℕ} {ms : List M} {m : M}
    (h : m ∈ (release number rank next ms).out) :
    next ≤ number m ∧ number m ≤ (release number rank next ms).next := by
  induction ms generalizing next with
  | nil => simp [release] at h
  | cons b bs ih =>
    by_cases hb : number b = next
    · simp only [release, if_pos hb] at h ⊢
      have hnext := @le_release_next _ number rank
        (if rank b = ⊤ then next + 1 else next) bs
      have hstep : next ≤ if rank b = ⊤ then next + 1 else next := by split <;> omega
      rcases List.mem_cons.mp h with rfl | h
      · exact ⟨by omega, by omega⟩
      · have := ih h
        exact ⟨by omega, this.2⟩
    · simp [release, hb] at h

theorem out_numbers_sorted (next : ℕ) (ms : List M) :
    (release number rank next ms).out.Pairwise fun a b => number a ≤ number b := by
  induction ms generalizing next with
  | nil => simp [release]
  | cons b bs ih =>
    simp only [release]
    split
    · rename_i hb
      refine List.pairwise_cons.mpr ⟨fun m hm => ?_, ih _⟩
      have := (number_le_of_mem_out hm).1
      split at this <;> omega
    · simp

/-- The closing messages that leave have exactly the numbers passed over. -/
theorem release_closing (next : ℕ) (ms : List M) :
    ((release number rank next ms).out.filter fun m => rank m = ⊤).map number =
      List.range' next ((release number rank next ms).next - next) := by
  induction ms generalizing next with
  | nil => simp [release]
  | cons b bs ih =>
    simp only [release]
    split
    · rename_i hb
      by_cases htop : rank b = ⊤
      · have hnext := @le_release_next _ number rank (next + 1) bs
        simp only [htop, if_true, decide_true, List.filter_cons_of_pos, List.map_cons, ih, hb]
        rw [← List.range'_succ]
        congr 1
        omega
      · simp [htop, ih]
    · simp

end ReorderBuffer
