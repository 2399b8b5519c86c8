import SLikeNet.Library.SerialNumber

/-! `uint24_t` of `types.h`, the type of all message, ordering and datagram numbers. -/

namespace SLikeNet

/-- Every operator of `uint24_t` works on a `uint32_t` and masks the result to 24 bits. -/
structure Uint24 where
  val : Nat
  isLt : val < 2 ^ 24
deriving DecidableEq

namespace Uint24

def ofNat (n : Nat) : Uint24 := ⟨n % 2 ^ 24, Nat.mod_lt _ (by decide)⟩

instance (n : Nat) : OfNat Uint24 n := ⟨ofNat n⟩

instance : Inhabited Uint24 := ⟨0⟩

instance : Add Uint24 := ⟨fun a b => ofNat (a.val + b.val)⟩

instance : Sub Uint24 := ⟨fun a b => ofNat (2 ^ 32 - b.val + a.val)⟩

instance : Div Uint24 := ⟨fun a b => ofNat (a.val / b.val)⟩

instance : LT Uint24 := ⟨fun a b => a.val < b.val⟩

instance : LE Uint24 := ⟨fun a b => a.val ≤ b.val⟩

instance (a b : Uint24) : Decidable (a < b) := Nat.decLt a.val b.val

instance (a b : Uint24) : Decidable (a ≤ b) := Nat.decLe a.val b.val

/-- `operator++` -/
def succ (a : Uint24) : Uint24 := ofNat (a.val + 1)

/-- `(uint24_t)(const uint32_t)-1`, which the source uses as the top of the range. -/
def max : Uint24 := ofNat (2 ^ 32 - 1)

@[ext] theorem ext {a b : Uint24} (h : a.val = b.val) : a = b := by
  cases a
  cases b
  cases h
  rfl

theorem eq_iff {a b : Uint24} : a = b ↔ a.val = b.val := ⟨fun h => h ▸ rfl, ext⟩

theorem lt_iff {a b : Uint24} : a < b ↔ a.val < b.val := Iff.rfl

theorem le_iff {a b : Uint24} : a ≤ b ↔ a.val ≤ b.val := Iff.rfl

@[simp] theorem val_ofNat (n : Nat) : (ofNat n).val = n % 2 ^ 24 := rfl

@[simp] theorem ofNat_val (a : Uint24) : ofNat a.val = a := ext (Nat.mod_eq_of_lt a.isLt)

theorem val_ofNat_of_lt {n : Nat} (h : n < 2 ^ 24) : (ofNat n).val = n := Nat.mod_eq_of_lt h

theorem val_add (a b : Uint24) : (a + b).val = (a.val + b.val) % 2 ^ 24 := rfl

theorem val_succ (a : Uint24) : a.succ.val = (a.val + 1) % 2 ^ 24 := rfl

theorem val_sub (a b : Uint24) : (a - b).val = (a.val + (2 ^ 24 - b.val)) % 2 ^ 24 := by
  have hb := b.isLt
  change (2 ^ 32 - b.val + a.val) % 2 ^ 24 = _
  omega

@[simp] theorem succ_ofNat (n : Nat) : (ofNat n).succ = ofNat (n + 1) := by
  apply ext
  simp only [val_succ, val_ofNat]
  omega

theorem ofNat_add_ofNat (a b : Nat) : ofNat a + ofNat b = ofNat (a + b) := by
  apply ext
  simp only [val_add, val_ofNat]
  omega

theorem ofNat_sub_ofNat {a b : Nat} (h : a ≤ b) : ofNat b - ofNat a = ofNat (b - a) := by
  apply ext
  rw [val_sub, val_ofNat, val_ofNat, val_ofNat]
  exact SerialNumber.sub_mod (by decide) h

theorem val_ofNat_sub_ofNat {a b : Nat} (h : a ≤ b) (hlt : b < a + 2 ^ 24) :
    (ofNat b - ofNat a).val = b - a := by
  rw [ofNat_sub_ofNat h, val_ofNat_of_lt (by omega)]

theorem ofNat_eq_ofNat_iff {a b : Nat} (hab : a < b + 2 ^ 24) (hba : b < a + 2 ^ 24) :
    ofNat a = ofNat b ↔ a = b := by
  rw [eq_iff]
  exact SerialNumber.mod_eq_iff hab hba

end Uint24

end SLikeNet
