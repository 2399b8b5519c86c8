import Mathlib.Data.Nat.ModEq

/-! Counters that travel modulo `m`: what the residues still say about the
numbers when these lie within one window. -/

namespace SerialNumber

variable {m a b : Nat}

/-- The residues of two numbers less than a window apart are equal only for
equal numbers. -/
theorem mod_eq_iff (hab : a < b + m) (hba : b < a + m) : a % m = b % m ↔ a = b := by
  constructor
  · intro h
    rcases Nat.le_total a b with hle | hle
    · have hd : m ∣ b - a := (Nat.modEq_iff_dvd' hle).mp h
      have := Nat.eq_zero_of_dvd_of_lt hd (by omega)
      omega
    · have hd : m ∣ a - b := (Nat.modEq_iff_dvd' hle).mp h.symm
      have := Nat.eq_zero_of_dvd_of_lt hd (by omega)
      omega
  · rintro rfl
    rfl

/-- Subtracting residues gives the residue of the distance. -/
theorem sub_mod (hm : 0 < m) (hab : a ≤ b) : (b % m + (m - a % m)) % m = (b - a) % m := by
  have ha := Nat.mod_lt a hm
  have h : (b % m + (m - a % m)) + a ≡ (b - a) + a [MOD m] := by
    calc (b % m + (m - a % m)) + a
        ≡ (b % m + (m - a % m)) + a % m [MOD m] := Nat.ModEq.add_left _ (Nat.mod_modEq a m).symm
      _ = b % m + m := by omega
      _ ≡ b % m [MOD m] := by simp [Nat.ModEq]
      _ ≡ b [MOD m] := Nat.mod_modEq b m
      _ = (b - a) + a := by omega
  exact Nat.ModEq.add_right_cancel' a h

end SerialNumber
