import SLikeNet.OrderedList
import Mathlib.Data.Set.Basic
import Mathlib.Order.Basic
import Mathlib.Algebra.Group.Nat.Defs

/-! The comparisons of `SystemAddress` with `RAKNET_SUPPORT_IPV6` and without it. -/

namespace SLikeNet

/-! ### The addresses in memory -/

inductive Family
  | inet
  | inet6
deriving DecidableEq

/-- The union of `sockaddr_in` and `sockaddr_in6`: `s_addr` lies over `sin6_flowinfo`, and the 16
bytes of `s6_addr` over what an IPv4 address does not use. -/
structure AddressUnion where
  family : Family
  port : UInt16
  s_addr : UInt32
  s6_addr : List UInt8
deriving DecidableEq

/-- An address as the constructors build it, with `RAKNET_SUPPORT_IPV6` or without it. -/
inductive Address : Bool → Type
  | ipv4 {supportIPv6 : Bool} (ip : UInt32) (port : UInt16) : Address supportIPv6
  | ipv6 (bytes : List UInt8) (length_eq : bytes.length = 16) (port : UInt16) : Address true

/-- `memcmp` of as many bytes as both have. -/
def memcmp : List UInt8 → List UInt8 → Ordering
  | a :: as, b :: bs => if a < b then .lt else if b < a then .gt else memcmp as bs
  | _, _ => .eq

namespace Address

variable {supportIPv6 : Bool}

/-- The bytes that the constructors do not set are zero. -/
def address : Address supportIPv6 → AddressUnion
  | ipv4 ip port => ⟨.inet, port, ip, List.replicate 16 0⟩
  | ipv6 bytes _ port => ⟨.inet6, port, 0, bytes⟩

def equalsExcludingPort (a b : Address supportIPv6) : Bool :=
  decide (a.address.family = .inet ∧ a.address.s_addr = b.address.s_addr) ||
    supportIPv6 && decide (a.address.family = .inet6 ∧
      memcmp a.address.s6_addr b.address.s6_addr = .eq)

/-- `operator==` -/
def eq (a b : Address supportIPv6) : Bool :=
  decide (a.address.port = b.address.port) && a.equalsExcludingPort b

/-- `operator>` -/
def gt (a b : Address supportIPv6) : Bool :=
  if a.address.port = b.address.port then
    if supportIPv6 = true ∧ a.address.family ≠ .inet then
      decide (memcmp a.address.s6_addr b.address.s6_addr = .gt)
    else decide (a.address.s_addr > b.address.s_addr)
  else decide (a.address.port > b.address.port)

/-- `operator<`, which asks `memcmp` for a positive result too. -/
def lt (a b : Address supportIPv6) : Bool :=
  if a.address.port = b.address.port then
    if supportIPv6 = true ∧ a.address.family ≠ .inet then
      decide (memcmp a.address.s6_addr b.address.s6_addr = .gt)
    else decide (a.address.s_addr < b.address.s_addr)
  else decide (a.address.port < b.address.port)

/-- `defaultOrderedListComparison` -/
def comparison (a b : Address supportIPv6) : Ordering :=
  if a.lt b then .lt else if a.eq b then .eq else .gt

/-! ### The order -/

/-- Exactly one of the three holds. -/
def ExactlyOne (p q r : Prop) : Prop := p ∧ ¬q ∧ ¬r ∨ ¬p ∧ q ∧ ¬r ∨ ¬p ∧ ¬q ∧ r

structure TotallyOrdered (s : Set (Address supportIPv6)) : Prop where
  exactlyOne : ∀ a ∈ s, ∀ b ∈ s, ExactlyOne (a.lt b = true) (a.eq b = true) (a.gt b = true)
  lt_iff_gt : ∀ a ∈ s, ∀ b ∈ s, a.lt b = true ↔ b.gt a = true
  trans : ∀ a ∈ s, ∀ b ∈ s, ∀ c ∈ s, a.lt b = true → b.lt c = true → a.lt c = true
  found : ∀ inserted : List (Address supportIPv6), (∀ a ∈ inserted, a ∈ s) → ∀ a ∈ inserted,
    let orderedList := inserted.foldl (OrderedList.insert comparison) []
    let place := OrderedList.getIndexFromKey comparison orderedList a
    place.2 = true ∧ ∃ b, orderedList[place.1]? = some b ∧ a.eq b = true

def IsIPv4 (a : Address supportIPv6) : Prop := a.address.family = .inet

/-- The addresses are the same but for their families. -/
def SameBytes (a b : Address supportIPv6) : Prop :=
  a.address.s_addr = b.address.s_addr ∧ a.address.s6_addr = b.address.s6_addr

theorem memcmp_eq_iff {as bs : List UInt8} (h : as.length = bs.length) :
    memcmp as bs = .eq ↔ as = bs := by
  induction as generalizing bs with
  | nil =>
    cases bs with
    | nil => simp [memcmp]
    | cons b bs => cases h
  | cons a as ih =>
    cases bs with
    | nil => cases h
    | cons b bs =>
      rw [memcmp, List.cons.injEq]
      split
      · next hlt => simp [UInt8.ne_of_lt hlt]
      · next hge =>
        split
        · next hgt => simp [(UInt8.ne_of_lt hgt).symm]
        · next hle =>
          rw [ih (by simpa using h)]
          have heq : a = b := UInt8.le_antisymm (UInt8.not_lt.mp hle) (UInt8.not_lt.mp hge)
          simp [heq]

theorem length_s6_addr (a : Address supportIPv6) : a.address.s6_addr.length = 16 := by
  cases a with
  | ipv4 => rfl
  | ipv6 bytes length_eq => exact length_eq

theorem memcmp_self (as : List UInt8) : memcmp as as = .eq := (memcmp_eq_iff rfl).mpr rfl

/-! ### Addresses that compare rightly -/

/-- Addresses of one port are IPv4 addresses, or have the same bytes. -/
def Placed (s : Set (Address supportIPv6)) : Prop :=
  ∀ a ∈ s, ∀ b ∈ s, a.address.port = b.address.port → IsIPv4 a ∧ IsIPv4 b ∨ SameBytes a b

/-- The port and the address as one number. -/
def key (a : Address supportIPv6) : ℕ :=
  a.address.port.toNat * 2 ^ 32 + a.address.s_addr.toNat

theorem ipv4_or (a : Address supportIPv6) :
    IsIPv4 a ∨ supportIPv6 = true ∧ a.address.family = .inet6 := by
  cases a with
  | ipv4 => exact .inl rfl
  | ipv6 => exact .inr ⟨rfl, rfl⟩

theorem compare_key {a b : Address supportIPv6}
    (h : a.address.port = b.address.port → IsIPv4 a ∧ IsIPv4 b ∨ SameBytes a b) :
    (a.lt b = true ↔ a.key < b.key) ∧ (a.eq b = true ↔ a.key = b.key) ∧
      (a.gt b = true ↔ b.key < a.key) := by
  have hs := a.address.s_addr.toNat_lt
  have hs' := b.address.s_addr.toNat_lt
  rw [lt, eq, gt, key, key]
  by_cases hport : a.address.port = b.address.port
  · simp only [hport, if_true, decide_true, Bool.true_and, Nat.add_lt_add_iff_left,
      Nat.add_left_cancel_iff, equalsExcludingPort]
    obtain ⟨hip, -⟩ | ⟨hsame, hbytes⟩ := h hport
    · rw [IsIPv4] at hip
      simp [hip, UInt32.lt_iff_toNat_lt, ← UInt32.toNat_inj]
    · obtain hip | ⟨hsupport, hfamily⟩ := ipv4_or a
      · rw [IsIPv4] at hip
        simp [hip, UInt32.lt_iff_toNat_lt, ← UInt32.toNat_inj]
      · simp [hsupport, hfamily, hbytes, memcmp_self, hsame]
  · have hne : a.address.port.toNat ≠ b.address.port.toNat :=
      fun heq => hport (UInt16.toNat_inj.mp heq)
    simp only [hport, if_false, decide_false, Bool.false_and, decide_eq_true_eq, gt_iff_lt,
      UInt16.lt_iff_toNat_lt, Bool.false_eq_true, false_iff]
    omega

theorem totalOn_comparison {s : Set (Address supportIPv6)} (h : Placed s) :
    OrderedList.TotalOn comparison (· ∈ s) := by
  apply OrderedList.TotalOn.of_rel (r := fun a b => a.key < b.key)
  · intro a b ha hb
    obtain ⟨hlt, heq, -⟩ := compare_key (h a ha b hb)
    rw [comparison]
    split
    · simp_all
    · split <;> simp_all
  · intro a b ha hb
    obtain ⟨hlt, heq, -⟩ := compare_key (h a ha b hb)
    rw [comparison]
    split
    · simp_all
      omega
    · split
      · simp_all
      · simp_all
        omega
  · intro a b c _ _ _ hab hbc
    omega

theorem exactlyOne_key (m n : ℕ) : ExactlyOne (m < n) (m = n) (n < m) := by
  rw [ExactlyOne]
  omega

theorem TotallyOrdered.of_placed {s : Set (Address supportIPv6)} (h : Placed s) :
    TotallyOrdered s where
  exactlyOne a ha b hb := by
    obtain ⟨hlt, heq, hgt⟩ := compare_key (h a ha b hb)
    rw [hlt, heq, hgt]
    exact exactlyOne_key _ _
  lt_iff_gt a ha b hb := (compare_key (h a ha b hb)).1.trans (compare_key (h b hb a ha)).2.2.symm
  trans a ha b hb c hc hab hbc := by
    rw [(compare_key (h a ha b hb)).1] at hab
    rw [(compare_key (h b hb c hc)).1] at hbc
    rw [(compare_key (h a ha c hc)).1]
    exact hab.trans hbc
  found inserted hinserted a ha := by
    have htotal := totalOn_comparison h
    obtain ⟨hsorted, -⟩ := OrderedList.foldl_insert htotal hinserted
    have hmonotone := hsorted.monotone htotal (hinserted a ha)
    have hfound := (OrderedList.getIndexFromKey_eq_true_iff hmonotone).mpr
      (OrderedList.foldl_insert_found htotal hinserted a ha)
    refine ⟨hfound, ?_⟩
    obtain ⟨before, b, after, hlist, hindex, hsame⟩ :=
      OrderedList.getIndexFromKey_at hmonotone hfound
    refine ⟨b, ?_, ?_⟩
    · rw [hindex, hlist, List.getElem?_append_right (Nat.le_refl _), Nat.sub_self]
      rfl
    · rw [comparison] at hsame
      split at hsame
      · cases hsame
      · split at hsame
        · assumption
        · cases hsame

theorem s_addr_ipv6 {a : Address supportIPv6} (h : a.address.family = .inet6) :
    a.address.s_addr = 0 := by
  cases a with
  | ipv4 => cases h
  | ipv6 => rfl

theorem TotallyOrdered.sameBytes {s : Set (Address supportIPv6)} (h : TotallyOrdered s)
    {a b : Address supportIPv6} (ha : a ∈ s) (hb : b ∈ s)
    (hport : a.address.port = b.address.port) (hsupport : supportIPv6 = true)
    (hfamily : a.address.family = .inet6) : SameBytes a b := by
  have hlength : a.address.s6_addr.length = b.address.s6_addr.length :=
    (length_s6_addr a).trans (length_s6_addr b).symm
  have hlt : a.lt b = decide (memcmp a.address.s6_addr b.address.s6_addr = .gt) := by
    simp [lt, hport, hsupport, hfamily]
  have hgt : a.gt b = decide (memcmp a.address.s6_addr b.address.s6_addr = .gt) := by
    simp [gt, hport, hsupport, hfamily]
  have heq : a.eq b = decide (memcmp a.address.s6_addr b.address.s6_addr = .eq) := by
    simp [eq, equalsExcludingPort, hport, hsupport, hfamily]
  have hsame : memcmp a.address.s6_addr b.address.s6_addr = .eq := by
    have hone := h.exactlyOne a ha b hb
    rw [hlt, hgt, heq, ExactlyOne] at hone
    simp only [decide_eq_true_eq] at hone
    tauto
  refine ⟨?_, (memcmp_eq_iff hlength).mp hsame⟩
  rw [s_addr_ipv6 hfamily]
  obtain hip | ⟨-, hfamily'⟩ := ipv4_or b
  · -- the address of the other one is not greater, seen from there
    have hflip := h.lt_iff_gt a ha b hb
    rw [IsIPv4] at hip
    rw [hlt, hsame, gt, if_pos hport.symm, hip, s_addr_ipv6 hfamily] at hflip
    simp only [decide_eq_true_eq, reduceCtorEq, false_iff, ne_eq, not_true_eq_false, and_false,
      if_false, gt_iff_lt] at hflip
    exact (UInt32.le_zero_iff.mp (UInt32.not_lt.mp hflip)).symm
  · exact (s_addr_ipv6 hfamily').symm

theorem Placed.of_totallyOrdered {s : Set (Address supportIPv6)} (h : TotallyOrdered s) :
    Placed s := by
  intro a ha b hb hport
  obtain hip | ⟨hsupport, hfamily⟩ := ipv4_or a
  · obtain hip' | ⟨hsupport, hfamily⟩ := ipv4_or b
    · exact .inl ⟨hip, hip'⟩
    · obtain ⟨hs, hbytes⟩ := h.sameBytes hb ha hport.symm hsupport hfamily
      exact .inr ⟨hs.symm, hbytes.symm⟩
  · exact .inr (h.sameBytes ha hb hport hsupport hfamily)

/-- The addresses are totally ordered exactly if no IPv6 address shares its port
with an address of other bytes. -/
theorem totallyOrdered_iff (s : Set (Address supportIPv6)) : TotallyOrdered s ↔ Placed s :=
  ⟨.of_totallyOrdered, .of_placed⟩

/-- `::n`, at port 0 -/
def loopback (n : UInt8) : Address true := ipv6 (List.replicate 15 0 ++ [n]) rfl 0

theorem two_ipv6_not_ordered : ¬TotallyOrdered {loopback 1, loopback 2} := by
  intro h
  have hone := h.exactlyOne (loopback 1) (.inl rfl) (loopback 2) (.inr rfl)
  have hnone : (loopback 1).lt (loopback 2) = false ∧ (loopback 1).eq (loopback 2) = false ∧
      (loopback 1).gt (loopback 2) = false := by decide
  simp [hnone, ExactlyOne] at hone

end Address

end SLikeNet
