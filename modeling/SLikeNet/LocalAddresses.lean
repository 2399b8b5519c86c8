import SLikeNet.AddressOrder
import Mathlib.Data.List.Perm.Basic

/-! `RakPeer::FillIPList`: the sort of the local addresses. -/

namespace SLikeNet

namespace Address

variable {supportIPv6 : Bool}

/-- `UNASSIGNED_SYSTEM_ADDRESS` -/
def unassigned : Address supportIPv6 := ipv4 0 0

theorem lt_irrefl (a : Address supportIPv6) : a.lt a = false := by
  simp [lt, memcmp_self]

end Address

namespace LocalAddresses

variable {supportIPv6 : Bool}

/-- `MAXIMUM_NUMBER_OF_INTERNAL_IDS` -/
def maximumNumberOfInternalIds : ℕ := 10

/-- An entry of `ipList`. Those behind the assigned addresses are unassigned. -/
def entry (ipList : List (Address supportIPv6)) (i : ℕ) : Address supportIPv6 :=
  ipList.getD i .unassigned

/-- The inner loop, which compares with the entry at `startingIdx` and keeps the last index of a
smaller one. -/
def lowestLoop (ipList : List (Address supportIPv6)) (startingIdx : ℕ) : ℕ → ℕ → ℕ → ℕ
  | 0, _, lowestIdx => lowestIdx
  | fuel + 1, curIdx, lowestIdx =>
    if curIdx < maximumNumberOfInternalIds - 1 ∧ (entry ipList curIdx).eq .unassigned = false then
      lowestLoop ipList startingIdx fuel (curIdx + 1)
        (if (entry ipList curIdx).lt (entry ipList startingIdx) then curIdx else lowestIdx)
    else lowestIdx

def lowest (ipList : List (Address supportIPv6)) (startingIdx : ℕ) : ℕ :=
  lowestLoop ipList startingIdx maximumNumberOfInternalIds (startingIdx + 1) startingIdx

/-- One pass of the outer loop. -/
def pass (ipList : List (Address supportIPv6)) (startingIdx : ℕ) : List (Address supportIPv6) :=
  let lowestIdx := lowest ipList startingIdx
  if startingIdx ≠ lowestIdx then
    (ipList.set startingIdx (entry ipList lowestIdx)).set lowestIdx (entry ipList startingIdx)
  else ipList

def sortLoop : ℕ → ℕ → List (Address supportIPv6) → List (Address supportIPv6)
  | 0, _, ipList => ipList
  | fuel + 1, startingIdx, ipList =>
    if startingIdx < maximumNumberOfInternalIds - 1 ∧
        (entry ipList startingIdx).eq .unassigned = false then
      sortLoop fuel (startingIdx + 1) (pass ipList startingIdx)
    else ipList

/-- The sort of `FillIPList`. -/
def sortIpList (ipList : List (Address supportIPv6)) : List (Address supportIPv6) :=
  sortLoop maximumNumberOfInternalIds 0 ipList

/-- No later address is smaller than an earlier one. -/
def Sorted (ipList : List (Address supportIPv6)) : Prop :=
  ipList.Pairwise fun earlier later => later.lt earlier = false

/-- The entries up to the last one but one that are assigned. -/
def Assigned (ipList : List (Address supportIPv6)) : Prop :=
  ipList.length ≤ maximumNumberOfInternalIds ∧ ∀ a ∈ ipList, a.eq .unassigned = false

/-- The list before the pass of an index. -/
def passes (ipList : List (Address supportIPv6)) : ℕ → List (Address supportIPv6)
  | 0 => ipList
  | startingIdx + 1 => pass (passes ipList startingIdx) startingIdx

/-- The last address behind the one at the index, and before the last place of the array, that is
smaller than it. -/
def lastSmaller (ipList : List (Address supportIPv6)) (startingIdx : ℕ) : Address supportIPv6 :=
  (((ipList.take (maximumNumberOfInternalIds - 1)).drop (startingIdx + 1)).filter
    (·.lt (entry ipList startingIdx))).getLastD (entry ipList startingIdx)

/-- Before every pass, none of the addresses from its index on is smaller than the last one that is
smaller than that at the index. -/
def LastSmallerIsLeast (ipList : List (Address supportIPv6)) : Prop :=
  ∀ startingIdx < min (maximumNumberOfInternalIds - 1) ipList.length,
    ∀ a ∈ (passes ipList startingIdx).drop startingIdx,
      a.lt (lastSmaller (passes ipList startingIdx) startingIdx) = false

variable {ipList : List (Address supportIPv6)} {startingIdx : ℕ}

theorem entry_eq (h : startingIdx < ipList.length) :
    entry ipList startingIdx = ipList[startingIdx] := by
  rw [entry, List.getD_eq_getElem?_getD, List.getElem?_eq_getElem h]
  rfl

theorem Assigned.entry_iff (h : Assigned ipList) (i : ℕ) :
    (entry ipList i).eq .unassigned = false ↔ i < ipList.length := by
  by_cases hi : i < ipList.length
  · rw [entry_eq hi]
    exact ⟨fun _ => hi, fun _ => h.2 _ (List.getElem_mem hi)⟩
  · rw [entry, List.getD_eq_getElem?_getD, List.getElem?_eq_none (Nat.le_of_not_lt hi)]
    simp [hi, Address.eq, Address.equalsExcludingPort, Address.unassigned, Address.address]

theorem Assigned.perm {ipList' : List (Address supportIPv6)} (h : Assigned ipList)
    (hperm : ipList'.Perm ipList) : Assigned ipList' :=
  ⟨hperm.length_eq ▸ h.1, fun a ha => h.2 a (hperm.mem_iff.mp ha)⟩

/-- The loop ends at the last of the smaller addresses that are still to come, if there is one. -/
theorem lowestLoop_spec (h : Assigned ipList) : ∀ fuel curIdx lowestIdx,
    maximumNumberOfInternalIds ≤ curIdx + fuel → lowestIdx < ipList.length →
      lowestIdx < curIdx →
      let found := lowestLoop ipList startingIdx fuel curIdx lowestIdx
      lowestIdx ≤ found ∧ found < ipList.length ∧
        entry ipList found =
          (((ipList.take (maximumNumberOfInternalIds - 1)).drop curIdx).filter
            (·.lt (entry ipList startingIdx))).getLastD (entry ipList lowestIdx) := by
  intro fuel
  induction fuel with
  | zero =>
    intro curIdx lowestIdx hfuel hlowest _
    refine ⟨Nat.le_refl _, hlowest, ?_⟩
    rw [lowestLoop, List.drop_of_length_le]
    · rfl
    · rw [List.length_take]
      omega
  | succ fuel ih =>
    intro curIdx lowestIdx hfuel hlowest hlt
    dsimp only
    rw [lowestLoop]
    simp only [h.entry_iff]
    by_cases hcur : curIdx < maximumNumberOfInternalIds - 1 ∧ curIdx < ipList.length
    · rw [if_pos hcur]
      have hlen : curIdx < (ipList.take (maximumNumberOfInternalIds - 1)).length := by
        rw [List.length_take]
        omega
      rw [List.drop_eq_getElem_cons hlen, List.getElem_take, ← entry_eq hcur.2, List.filter_cons]
      by_cases hsmaller : (entry ipList curIdx).lt (entry ipList startingIdx) = true
      · rw [if_pos hsmaller, if_pos hsmaller, List.getLastD_cons]
        obtain ⟨hle, hfound, heq⟩ := ih (curIdx + 1) curIdx (by omega) hcur.2 (Nat.lt_succ_self _)
        exact ⟨by omega, hfound, heq⟩
      · rw [if_neg hsmaller, if_neg hsmaller]
        exact ih (curIdx + 1) lowestIdx (by omega) hlowest (by omega)
    · rw [if_neg hcur, List.drop_of_length_le]
      · exact ⟨Nat.le_refl _, hlowest, rfl⟩
      · rw [List.length_take]
        omega

theorem lowest_spec (h : Assigned ipList) (hlt : startingIdx < ipList.length) :
    startingIdx ≤ lowest ipList startingIdx ∧ lowest ipList startingIdx < ipList.length ∧
      entry ipList (lowest ipList startingIdx) = lastSmaller ipList startingIdx :=
  lowestLoop_spec h _ _ _ (Nat.le_add_left _ _) hlt (Nat.lt_succ_self _)

theorem pass_spec (h : Assigned ipList) (hlt : startingIdx < ipList.length) :
    (pass ipList startingIdx).Perm ipList ∧
      (pass ipList startingIdx).take startingIdx = ipList.take startingIdx ∧
        entry (pass ipList startingIdx) startingIdx = lastSmaller ipList startingIdx := by
  obtain ⟨hle, hlowest, hfound⟩ := lowest_spec h hlt
  rw [pass]
  by_cases hsame : startingIdx = lowest ipList startingIdx
  · rw [if_neg (not_not_intro hsame), ← hfound, ← hsame]
    exact ⟨List.Perm.refl _, rfl, rfl⟩
  · rw [if_pos hsame, hfound.symm, entry_eq hlowest, entry_eq hlt]
    refine ⟨List.set_set_perm hlt hlowest, ?_, ?_⟩
    · rw [List.take_set_of_le hle, List.take_set_of_le (Nat.le_refl _)]
    · rw [entry, List.getD_eq_getElem?_getD, List.getElem?_set_ne (Ne.symm hsame),
        List.getElem?_set_self hlt]
      rfl

theorem passes_perm (h : Assigned ipList) (hle : startingIdx ≤ ipList.length) :
    (passes ipList startingIdx).Perm ipList := by
  induction startingIdx with
  | zero => exact List.Perm.refl _
  | succ startingIdx ih =>
    have hperm := ih (by omega)
    have hlt : startingIdx < (passes ipList startingIdx).length := by
      rw [hperm.length_eq]
      omega
    exact (pass_spec (h.perm hperm) hlt).1.trans hperm

theorem passes_step (h : Assigned ipList) (hlt : startingIdx < ipList.length) :
    (passes ipList (startingIdx + 1)).take startingIdx =
        (passes ipList startingIdx).take startingIdx ∧
      entry (passes ipList (startingIdx + 1)) startingIdx =
        lastSmaller (passes ipList startingIdx) startingIdx := by
  have hperm := passes_perm h hlt.le
  exact (pass_spec (h.perm hperm) (by rwa [hperm.length_eq])).2

theorem take_passes (h : Assigned ipList) {i j : ℕ} (hij : i ≤ j) (hj : j ≤ ipList.length) :
    (passes ipList j).take i = (passes ipList i).take i := by
  induction j, hij using Nat.le_induction with
  | base => rfl
  | succ j hij ih =>
    have hstep := congrArg (List.take i) (passes_step h hj).1
    rw [List.take_take, List.take_take, Nat.min_eq_left hij] at hstep
    exact hstep.trans (ih (by omega))

theorem entry_passes (h : Assigned ipList) {i j : ℕ} (hij : i < j) (hj : j ≤ ipList.length) :
    entry (passes ipList j) i = lastSmaller (passes ipList i) i := by
  have htake := congrArg (·[i]?) (take_passes h hij hj)
  simp only [List.getElem?_take, Nat.lt_succ_self, if_true] at htake
  rw [← (passes_step h (hij.trans_le hj)).2, entry, entry, List.getD_eq_getElem?_getD,
    List.getD_eq_getElem?_getD, htake]

theorem drop_passes (h : Assigned ipList) {i j : ℕ} (hij : i ≤ j) (hj : j ≤ ipList.length) :
    ((passes ipList j).drop i).Perm ((passes ipList i).drop i) := by
  have hperm := (passes_perm h hj).trans (passes_perm h (hij.trans hj)).symm
  rw [← List.take_append_drop i (passes ipList j), ← List.take_append_drop i (passes ipList i),
    take_passes h hij hj] at hperm
  exact (List.perm_append_left_iff _).mp hperm

theorem sortLoop_eq (h : Assigned ipList) : ∀ fuel startingIdx,
    maximumNumberOfInternalIds ≤ startingIdx + fuel →
      startingIdx ≤ min (maximumNumberOfInternalIds - 1) ipList.length →
      sortLoop fuel startingIdx (passes ipList startingIdx) =
        passes ipList (min (maximumNumberOfInternalIds - 1) ipList.length) := by
  intro fuel
  induction fuel with
  | zero =>
    intro startingIdx hfuel hle
    rw [maximumNumberOfInternalIds] at hfuel hle
    omega
  | succ fuel ih =>
    intro startingIdx hfuel hle
    have hperm := passes_perm h (hle.trans (Nat.min_le_right _ _))
    rw [sortLoop]
    simp only [(h.perm hperm).entry_iff, hperm.length_eq]
    split
    · next hlt => exact ih (startingIdx + 1) (by omega) (by omega)
    · next hge =>
      have hend : startingIdx = min (maximumNumberOfInternalIds - 1) ipList.length := by omega
      rw [← hend]

theorem sortIpList_eq (h : Assigned ipList) :
    sortIpList ipList = passes ipList (min (maximumNumberOfInternalIds - 1) ipList.length) :=
  sortLoop_eq h _ 0 (by omega) (Nat.zero_le _)

/-- The sort returns the addresses in their order exactly if in every pass the last of the smaller
addresses is a least one. -/
theorem sortIpList_iff (h : Assigned ipList) :
    (sortIpList ipList).Perm ipList ∧ Sorted (sortIpList ipList) ↔ LastSmallerIsLeast ipList := by
  have hend := Nat.min_le_right (maximumNumberOfInternalIds - 1) ipList.length
  have hperm := passes_perm h hend
  have hlength := hperm.length_eq
  have hbound := h.1
  rw [maximumNumberOfInternalIds] at hbound
  rw [sortIpList_eq h, and_iff_right hperm, Sorted, List.pairwise_iff_getElem]
  constructor
  · intro hsorted i hi a ha
    have hi' : i < (passes ipList (min (maximumNumberOfInternalIds - 1) ipList.length)).length := by
      omega
    obtain ⟨k, hk, rfl⟩ := List.getElem_of_mem ((drop_passes h hi.le hend).mem_iff.mpr ha)
    rw [← entry_passes h hi hend, entry_eq hi', List.getElem_drop]
    rw [List.length_drop] at hk
    obtain rfl | hpos := Nat.eq_zero_or_pos k
    · exact Address.lt_irrefl _
    · exact hsorted i (i + k) hi' (by omega) (by omega)
  · intro hleast i j hi hj hij
    -- the last place of the array is in no pass, but nothing lies behind it
    have hi' : i < min (maximumNumberOfInternalIds - 1) ipList.length := by
      rw [maximumNumberOfInternalIds] at *
      omega
    have hmem : (passes ipList (min (maximumNumberOfInternalIds - 1) ipList.length))[j] ∈
        (passes ipList (min (maximumNumberOfInternalIds - 1) ipList.length)).drop i :=
      List.mem_drop_iff_getElem.mpr ⟨j - i, by omega, by congr 1; omega⟩
    rw [← entry_eq hi, entry_passes h hi' hend]
    exact hleast i hi' _ ((drop_passes h hi'.le hend).mem_iff.mp hmem)

/-- An IPv4 address with port 0. -/
def host (ip : UInt32) : Address false := .ipv4 ip 0

theorem sortIpList_iff_hosts :
    Assigned [host 2, host 3, host 1] ∧
      ((sortIpList [host 2, host 3, host 1]).Perm [host 2, host 3, host 1] ∧
        Sorted (sortIpList [host 2, host 3, host 1]) ↔
          LastSmallerIsLeast [host 2, host 3, host 1]) :=
  have h : Assigned [host 2, host 3, host 1] := ⟨by decide, by decide⟩
  ⟨h, sortIpList_iff h⟩

theorem last_smaller_not_least : ¬Sorted (sortIpList [host 3, host 1, host 2]) := by
  have hlast : sortIpList [host 3, host 1, host 2] = [host 2, host 1, host 3] := rfl
  rw [hlast, Sorted]
  decide

end LocalAddresses

end SLikeNet
