import Mathlib.Data.List.Nodup
import Mathlib.Logic.Function.Basic

/-! Chains of elements that are threaded through a function of next elements: the loop that follows
one, and what it means to put an element at the end and to take one out. -/

namespace LinkedChains

variable {P : Type*} {next next' : P → Option P} {head : Option P} {chain : List P} {p : P}

/-- The elements that are met from the head on. -/
def Linked (next : P → Option P) : Option P → List P → Prop
  | head, [] => head = none
  | head, p :: chain => head = some p ∧ Linked next (next p) chain

/-- `while (p && !found(p)) p = p->next;`, which may run for ever. -/
def follow (next : P → Option P) (found : P → Bool) : ℕ → Option P → Option (Option P)
  | 0, _ => none
  | _ + 1, none => some none
  | fuel + 1, some p => if found p then some (some p) else follow next found fuel (next p)

theorem follow_eq {found : P → Bool} {fuel : ℕ} (h : Linked next head chain)
    (hfuel : chain.length < fuel) : follow next found fuel head = some (chain.find? found) := by
  induction chain generalizing head fuel with
  | nil =>
    obtain ⟨fuel, rfl⟩ := Nat.exists_eq_succ_of_ne_zero (Nat.ne_zero_of_lt hfuel)
    rw [show head = none from h]
    rfl
  | cons p chain ih =>
    obtain ⟨fuel, rfl⟩ := Nat.exists_eq_succ_of_ne_zero (Nat.ne_zero_of_lt hfuel)
    obtain ⟨rfl, htail⟩ := h
    rw [follow, List.find?_cons]
    cases hfound : found p with
    | true => rfl
    | false =>
      rw [if_neg Bool.false_ne_true]
      exact ih htail (by simpa using hfuel)

/-- Only the elements of the chain count. -/
theorem Linked.congr (h : Linked next head chain) (hsame : ∀ q ∈ chain, next' q = next q) :
    Linked next' head chain := by
  induction chain generalizing head with
  | nil => exact h
  | cons p chain ih =>
    rw [List.forall_mem_cons] at hsame
    obtain ⟨rfl, htail⟩ := h
    refine ⟨rfl, ?_⟩
    rw [hsame.1]
    exact ih htail hsame.2

variable [DecidableEq P]

/-- The loop to the end of a chain meets its last element, and an element behind that one is at the
end. -/
theorem Linked.append {a : P} (h : Linked next (some p) (p :: chain))
    (hnodup : (p :: chain).Nodup) (hnew : a ∉ p :: chain) (hnone : next a = none) :
    ∃ last ∈ p :: chain, (p :: chain).find? (fun q => next q = none) = some last ∧
      Linked (Function.update next last (some a)) (some p) (p :: chain ++ [a]) := by
  induction chain generalizing p with
  | nil =>
    have hend : next p = none := h.2
    have hne : a ≠ p := fun heq => hnew (heq ▸ List.mem_cons_self)
    refine ⟨p, List.mem_cons_self, by simp [hend], rfl, ?_, ?_⟩
    · rw [Function.update_self]
    · rw [Function.update_of_ne hne]
      exact hnone
  | cons q chain ih =>
    obtain ⟨-, hnext, htail⟩ := h
    rw [List.nodup_cons] at hnodup
    obtain ⟨last, hlast, hfind, hlinked⟩ :=
      ih ⟨rfl, htail⟩ hnodup.2 fun hmem => hnew (List.mem_cons_of_mem p hmem)
    have hne : p ≠ last := fun heq => hnodup.1 (heq ▸ hlast)
    refine ⟨last, List.mem_cons_of_mem p hlast, ?_, rfl, ?_⟩
    · rw [List.find?_cons_of_neg (by simp [hnext])]
      exact hfind
    · rw [Function.update_of_ne hne, hnext]
      exact hlinked

/-- The loop for the predecessor of an element meets it, and with the next element of the one that
is taken out the chain goes on behind it. -/
theorem Linked.unlink {a : P} (h : Linked next (some p) (p :: chain))
    (hnodup : (p :: chain).Nodup) (hmem : a ∈ chain) :
    ∃ before ∈ p :: chain, (p :: chain).find? (fun q => next q = some a) = some before ∧
      Linked (Function.update next before (next a)) (some p) ((p :: chain).erase a) := by
  induction chain generalizing p with
  | nil => cases hmem
  | cons q chain ih =>
    obtain ⟨-, hnext, htail⟩ := h
    rw [List.nodup_cons] at hnodup
    have hne : p ≠ a := fun heq => hnodup.1 (heq ▸ hmem)
    rw [List.erase_cons_tail (by simpa using hne)]
    obtain rfl | hmem' := List.mem_cons.mp hmem
    · refine ⟨p, List.mem_cons_self, by simp [hnext], rfl, ?_⟩
      rw [Function.update_self, List.erase_cons_head]
      refine htail.congr fun r hr => Function.update_of_ne ?_ _ _
      rintro rfl
      exact hnodup.1 (List.mem_cons_of_mem a hr)
    · have hqa : q ≠ a := fun heq => (List.nodup_cons.mp hnodup.2).1 (heq ▸ hmem')
      obtain ⟨before, hbefore, hfind, hlinked⟩ := ih ⟨rfl, htail⟩ hnodup.2 hmem'
      have hpb : p ≠ before := fun heq => hnodup.1 (heq ▸ hbefore)
      refine ⟨before, List.mem_cons_of_mem p hbefore, ?_, rfl, ?_⟩
      · rw [List.find?_cons_of_neg (by simpa [hnext] using hqa)]
        exact hfind
      · rw [Function.update_of_ne hpb, hnext]
        exact hlinked

end LinkedChains
