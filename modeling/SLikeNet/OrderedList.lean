import Mathlib.Data.List.Basic
import Mathlib.Data.List.Induction
import Mathlib.Data.List.Perm.Subperm
import Mathlib.Order.Lattice

/-! The binary search and the insertion of `DataStructures::OrderedList` in `DS_OrderedList.h`. -/

namespace SLikeNet

theorem insertIdx_length {α : Type*} (xs ys : List α) (a : α) :
    (xs ++ ys).insertIdx xs.length a = xs ++ a :: ys := by
  induction xs with
  | nil => rfl
  | cons x xs ih => exact congrArg (x :: ·) ih

namespace OrderedList

variable {K D : Type*}

/-- The loop of `GetIndexFromKey`. `upperEnd` is `upperBound + 1`; the bounds close in
at every step, so the size of the list bounds the steps. -/
def searchLoop (cf : K → D → Ordering) (orderedList : List D) (key : K) :
    Nat → Nat → Nat → Nat → Nat × Bool
  | 0, lowerBound, _, _ => (lowerBound, false)
  | fuel + 1, lowerBound, upperEnd, index =>
    match orderedList[index]? with
    | none => (0, false)
    | some d =>
      match cf key d with
      | .eq => (index, true)
      | .lt =>
        if index ≤ lowerBound then (lowerBound, false)
        else
          searchLoop cf orderedList key fuel lowerBound index
            (lowerBound + (index - 1 - lowerBound) / 2)
      | .gt =>
        if upperEnd ≤ index + 1 then (index + 1, false)
        else
          searchLoop cf orderedList key fuel (index + 1) upperEnd
            (index + 1 + (upperEnd - 1 - (index + 1)) / 2)

/-- `GetIndexFromKey`: the place of the key, and whether an element matches it. -/
def getIndexFromKey (cf : K → D → Ordering) (orderedList : List D) (key : K) : Nat × Bool :=
  searchLoop cf orderedList key orderedList.length 0 orderedList.length (orderedList.length / 2)

/-- The key compares with the elements in the order of the list. -/
def Monotone (cf : K → D → Ordering) (orderedList : List D) (key : K) : Prop :=
  orderedList.Pairwise fun a b =>
    (cf key a = .lt → cf key b = .lt) ∧ (cf key b = .gt → cf key a = .gt)

/-- What the search says: an element that matches, or the place between the elements
below the key and those above it. -/
def Found (cf : K → D → Ordering) (orderedList : List D) (key : K) (result : Nat × Bool) : Prop :=
  if result.2 then ∃ d, orderedList[result.1]? = some d ∧ cf key d = .eq
  else result.1 ≤ orderedList.length ∧
    ∀ (j : Nat) (d : D), orderedList[j]? = some d →
      (j < result.1 → cf key d = .gt) ∧ (result.1 ≤ j → cf key d = .lt)

theorem Monotone.lt_of_le {cf : K → D → Ordering} {orderedList : List D} {key : K}
    (h : Monotone cf orderedList key) {i j : Nat} {a b : D} (ha : orderedList[i]? = some a)
    (hb : orderedList[j]? = some b) (hij : i ≤ j) (hlt : cf key a = .lt) : cf key b = .lt := by
  obtain ⟨hi, rfl⟩ := List.getElem?_eq_some_iff.mp ha
  obtain ⟨hj, rfl⟩ := List.getElem?_eq_some_iff.mp hb
  rcases Nat.eq_or_lt_of_le hij with rfl | hij
  · exact hlt
  · exact (List.pairwise_iff_getElem.mp h i j hi hj hij).1 hlt

theorem Monotone.gt_of_le {cf : K → D → Ordering} {orderedList : List D} {key : K}
    (h : Monotone cf orderedList key) {i j : Nat} {a b : D} (ha : orderedList[i]? = some a)
    (hb : orderedList[j]? = some b) (hij : i ≤ j) (hgt : cf key b = .gt) : cf key a = .gt := by
  obtain ⟨hi, rfl⟩ := List.getElem?_eq_some_iff.mp ha
  obtain ⟨hj, rfl⟩ := List.getElem?_eq_some_iff.mp hb
  rcases Nat.eq_or_lt_of_le hij with rfl | hij
  · exact hgt
  · exact (List.pairwise_iff_getElem.mp h i j hi hj hij).2 hgt

/-- The elements below the lower bound lie below the key, those from the upper bound on
above it. -/
theorem searchLoop_found {cf : K → D → Ordering} {orderedList : List D} {key : K}
    (h : Monotone cf orderedList key) {fuel lower upper index : Nat}
    (hfuel : upper - lower ≤ fuel) (hlow : lower ≤ index) (hup : index < upper)
    (hlen : upper ≤ orderedList.length)
    (hbelow : ∀ (j : Nat) (d : D), orderedList[j]? = some d → j < lower → cf key d = .gt)
    (habove : ∀ (j : Nat) (d : D), orderedList[j]? = some d → upper ≤ j → cf key d = .lt) :
    Found cf orderedList key (searchLoop cf orderedList key fuel lower upper index) := by
  induction fuel generalizing lower upper index with
  | zero => omega
  | succ fuel ih =>
    have hd := List.getElem?_eq_getElem (l := orderedList) (i := index) (by omega)
    generalize orderedList[index] = d at hd
    simp only [searchLoop, hd]
    cases hcf : cf key d with
    | eq => exact ⟨d, hd, hcf⟩
    | lt =>
      have habove' : ∀ (j : Nat) (e : D), orderedList[j]? = some e → index ≤ j →
          cf key e = .lt := fun j e he hj => h.lt_of_le hd he hj hcf
      by_cases hle : index ≤ lower
      · simp only [hle, if_true]
        refine ⟨by show lower ≤ _; omega, fun j e he => ⟨hbelow j e he, fun hj => ?_⟩⟩
        exact habove' j e he (Nat.le_trans hle hj)
      · simp only [hle, if_false]
        apply ih
        · omega
        · omega
        · omega
        · omega
        · exact hbelow
        · exact habove'
    | gt =>
      have hbelow' : ∀ (j : Nat) (e : D), orderedList[j]? = some e → j < index + 1 →
          cf key e = .gt := fun j e he hj => h.gt_of_le he hd (Nat.le_of_lt_succ hj) hcf
      by_cases hle : upper ≤ index + 1
      · simp only [hle, if_true]
        refine ⟨by show index + 1 ≤ _; omega, fun j e he => ⟨hbelow' j e he, fun hj => ?_⟩⟩
        exact habove j e he (Nat.le_trans hle hj)
      · simp only [hle, if_false]
        apply ih
        · omega
        · omega
        · omega
        · omega
        · exact hbelow'
        · exact habove

theorem getIndexFromKey_found {cf : K → D → Ordering} {orderedList : List D} {key : K}
    (h : Monotone cf orderedList key) :
    Found cf orderedList key (getIndexFromKey cf orderedList key) := by
  cases orderedList with
  | nil => exact ⟨Nat.le_refl _, fun j d hd => by simp at hd⟩
  | cons d ds =>
    apply searchLoop_found h
    · omega
    · omega
    · simp only [List.length_cons]
      omega
    · exact Nat.le_refl _
    · intro j e _ hj
      omega
    · intro j e he hj
      have := (List.getElem?_eq_some_iff.mp he).1
      omega

theorem getIndexFromKey_eq_true_iff {cf : K → D → Ordering} {orderedList : List D} {key : K}
    (h : Monotone cf orderedList key) :
    (getIndexFromKey cf orderedList key).2 = true ↔ ∃ d ∈ orderedList, cf key d = .eq := by
  have hfound := getIndexFromKey_found h
  constructor
  · intro htrue
    rw [Found, if_pos htrue] at hfound
    obtain ⟨d, hd, hcf⟩ := hfound
    exact ⟨d, List.mem_of_getElem? hd, hcf⟩
  · rintro ⟨d, hd, hcf⟩
    by_contra hfalse
    rw [Found, if_neg hfalse] at hfound
    obtain ⟨j, hj⟩ := List.getElem?_of_mem hd
    obtain ⟨hgt, hlt⟩ := hfound.2 j d hj
    rcases Nat.lt_or_ge j (getIndexFromKey cf orderedList key).1 with hlt' | hge
    · exact absurd (hcf.symm.trans (hgt hlt')) (by decide)
    · exact absurd (hcf.symm.trans (hlt hge)) (by decide)

theorem getIndexFromKey_at {cf : K → D → Ordering} {orderedList : List D} {key : K}
    (h : Monotone cf orderedList key) (htrue : (getIndexFromKey cf orderedList key).2 = true) :
    ∃ xs d ys, orderedList = xs ++ d :: ys ∧ (getIndexFromKey cf orderedList key).1 = xs.length ∧
      cf key d = .eq := by
  have hfound := getIndexFromKey_found h
  rw [Found, if_pos htrue] at hfound
  generalize (getIndexFromKey cf orderedList key).1 = i at hfound
  obtain ⟨d, hd, hcf⟩ := hfound
  obtain ⟨hi, rfl⟩ := List.getElem?_eq_some_iff.mp hd
  refine ⟨orderedList.take i, _, orderedList.drop (i + 1), ?_, ?_, hcf⟩
  · rw [← List.drop_eq_getElem_cons hi, List.take_append_drop]
  · rw [List.length_take]
    omega

theorem getIndexFromKey_split {cf : K → D → Ordering} {orderedList : List D} {key : K}
    (h : Monotone cf orderedList key) (hnone : (getIndexFromKey cf orderedList key).2 = false) :
    ∃ xs ys, orderedList = xs ++ ys ∧ (getIndexFromKey cf orderedList key).1 = xs.length ∧
      (∀ d ∈ xs, cf key d = .gt) ∧ ∀ d ∈ ys, cf key d = .lt := by
  have hfound := getIndexFromKey_found h
  rw [Found, if_neg (by simp [hnone])] at hfound
  generalize (getIndexFromKey cf orderedList key).1 = i at hfound
  obtain ⟨hi, hall⟩ := hfound
  refine ⟨orderedList.take i, orderedList.drop i, (List.take_append_drop i _).symm, ?_, ?_, ?_⟩
  · rw [List.length_take]
    omega
  · intro d hd
    obtain ⟨j, hj⟩ := List.getElem?_of_mem hd
    rw [List.getElem?_take] at hj
    split at hj
    · exact (hall j d hj).1 ‹_›
    · cases hj
  · intro d hd
    obtain ⟨j, hj⟩ := List.getElem?_of_mem hd
    rw [List.getElem?_drop] at hj
    exact (hall (i + j) d hj).2 (Nat.le_add_right i j)

theorem searchLoop_matches {cf : K → D → Ordering} {orderedList : List D} {key : K} {found : ℕ} :
    ∀ {fuel lowerBound upperEnd index : ℕ},
      searchLoop cf orderedList key fuel lowerBound upperEnd index = (found, true) →
        ∃ d, orderedList[found]? = some d ∧ cf key d = .eq := by
  intro fuel
  induction fuel with
  | zero =>
    intro lowerBound upperEnd index h
    cases h
  | succ fuel ih =>
    intro lowerBound upperEnd index h
    rw [searchLoop] at h
    cases hget : orderedList[index]? with
    | none =>
      rw [hget] at h
      cases h
    | some d =>
      rw [hget] at h
      dsimp only at h
      cases hcf : cf key d with
      | eq =>
        rw [hcf] at h
        cases h
        exact ⟨d, hget, hcf⟩
      | lt =>
        rw [hcf] at h
        dsimp only at h
        split at h
        · cases h
        · exact ih h
      | gt =>
        rw [hcf] at h
        dsimp only at h
        split at h
        · cases h
        · exact ih h

theorem searchLoop_front {cf : K → D → Ordering} {orderedList : List D} {key : K}
    (hlt : ∀ d ∈ orderedList, cf key d = .lt) : ∀ {fuel upperEnd index : ℕ},
      index < orderedList.length →
      searchLoop cf orderedList key fuel 0 upperEnd index = (0, false) := by
  intro fuel
  induction fuel with
  | zero => exact fun _ => rfl
  | succ fuel ih =>
    intro upperEnd index hindex
    have hget := List.getElem?_eq_getElem hindex
    rw [searchLoop, hget]
    dsimp only
    rw [hlt _ (List.getElem_mem hindex)]
    dsimp only
    split
    · rfl
    · exact ih (by omega)

/-! ### Insertion -/

/-- `Insert` of an element that is its own key. -/
def insert (cf : D → D → Ordering) (orderedList : List D) (data : D) : List D :=
  let (index, objectExists) := getIndexFromKey cf orderedList data
  if objectExists then orderedList
  else if index ≥ orderedList.length then orderedList ++ [data]
  else orderedList.insertIdx index data

/-- A comparison that is one of a total order on some elements. -/
structure TotalOn (cf : D → D → Ordering) (P : D → Prop) : Prop where
  swap : ∀ {a b}, P a → P b → cf b a = (cf a b).swap
  trans : ∀ {a b c}, P a → P b → P c → cf a b ≠ .gt → cf b c ≠ .gt → cf a c ≠ .gt

variable {cf cf' : D → D → Ordering} {P : D → Prop}

theorem TotalOn.lt_trans (h : TotalOn cf P) {a b c : D} (ha : P a) (hb : P b) (hc : P c)
    (hab : cf a b = .lt) (hbc : cf b c ≠ .gt) : cf a c = .lt := by
  have hac := h.trans ha hb hc (by rw [hab]; decide) hbc
  cases hcase : cf a c with
  | lt => rfl
  | gt => exact absurd hcase hac
  | eq =>
    have hca : cf c a = .eq := by rw [h.swap ha hc, hcase]; rfl
    have hba := h.trans hb hc ha hbc (by rw [hca]; decide)
    rw [h.swap ha hb, hab] at hba
    exact absurd rfl hba

theorem TotalOn.lt_trans' (h : TotalOn cf P) {a b c : D} (ha : P a) (hb : P b) (hc : P c)
    (hab : cf a b ≠ .gt) (hbc : cf b c = .lt) : cf a c = .lt := by
  have hac := h.trans ha hb hc hab (by rw [hbc]; decide)
  cases hcase : cf a c with
  | lt => rfl
  | gt => exact absurd hcase hac
  | eq =>
    have hca : cf c a = .eq := by rw [h.swap ha hc, hcase]; rfl
    have hcb := h.trans hc ha hb (by rw [hca]; decide) hab
    rw [h.swap hb hc, hbc] at hcb
    exact absurd rfl hcb

theorem TotalOn.of_rel {r : D → D → Prop} (hlt : ∀ {a b}, P a → P b → (cf a b = .lt ↔ r a b))
    (hgt : ∀ {a b}, P a → P b → (cf a b = .gt ↔ r b a))
    (htrans : ∀ {a b c}, P a → P b → P c → ¬ r b a → ¬ r c b → ¬ r c a) : TotalOn cf P where
  swap {a b} ha hb := by
    cases hcase : cf a b with
    | lt => exact (hgt hb ha).mpr ((hlt ha hb).mp hcase)
    | gt => exact (hlt hb ha).mpr ((hgt ha hb).mp hcase)
    | eq =>
      cases hcase' : cf b a with
      | lt =>
        rw [(hgt ha hb).mpr ((hlt hb ha).mp hcase')] at hcase
        cases hcase
      | gt =>
        rw [(hlt ha hb).mpr ((hgt hb ha).mp hcase')] at hcase
        cases hcase
      | eq => rfl
  trans {a b c} ha hb hc hab hbc := by
    rw [Ne, hgt ha hb] at hab
    rw [Ne, hgt hb hc] at hbc
    rw [Ne, hgt ha hc]
    exact htrans ha hb hc hab hbc

theorem TotalOn.then (h : TotalOn cf P) (h' : TotalOn cf' P) :
    TotalOn (fun a b => (cf a b).then (cf' a b)) P where
  swap ha hb := by
    rw [h.swap ha hb, h'.swap ha hb, Ordering.swap_then]
  trans {a b c} ha hb hc hab hbc := by
    cases hcab : cf a b with
    | gt => rw [hcab] at hab; exact absurd rfl hab
    | lt =>
      have hle : cf b c ≠ .gt := by
        intro hgt
        rw [hgt] at hbc
        exact absurd rfl hbc
      rw [h.lt_trans ha hb hc hcab hle]
      exact (by decide : Ordering.lt ≠ .gt)
    | eq =>
      cases hcbc : cf b c with
      | gt => rw [hcbc] at hbc; exact absurd rfl hbc
      | lt =>
        rw [h.lt_trans' ha hb hc (by rw [hcab]; decide) hcbc]
        exact (by decide : Ordering.lt ≠ .gt)
      | eq =>
        have hac := h.trans ha hb hc (by rw [hcab]; decide) (by rw [hcbc]; decide)
        rw [hcab] at hab
        rw [hcbc] at hbc
        cases hcac : cf a c with
        | gt => exact absurd hcac hac
        | lt => exact (by decide : Ordering.lt ≠ .gt)
        | eq => exact h'.trans ha hb hc hab hbc

/-- A list in the order of the comparison, without elements that compare as equal. -/
structure Sorted (cf : D → D → Ordering) (P : D → Prop) (orderedList : List D) : Prop where
  all : ∀ d ∈ orderedList, P d
  pairwise : orderedList.Pairwise fun a b => cf a b = .lt

theorem Sorted.monotone {orderedList : List D} (hcf : TotalOn cf P)
    (h : Sorted cf P orderedList) {key : D} (hkey : P key) : Monotone cf orderedList key := by
  refine h.pairwise.imp_of_mem fun {a b} ha hb hab => ⟨fun hlt => ?_, fun hgt => ?_⟩
  · exact hcf.lt_trans hkey (h.all a ha) (h.all b hb) hlt (by rw [hab]; decide)
  · have hbk : cf b key = .lt := by rw [hcf.swap hkey (h.all b hb), hgt]; rfl
    have hak := hcf.lt_trans (h.all a ha) (h.all b hb) hkey hab (by rw [hbk]; decide)
    rw [hcf.swap (h.all a ha) hkey, hak]
    rfl

theorem Sorted.insert_middle (hcf : TotalOn cf P) {xs ys : List D} {data : D}
    (h : Sorted cf P (xs ++ ys)) (hdata : P data) (hbelow : ∀ d ∈ xs, cf data d = .gt)
    (habove : ∀ d ∈ ys, cf data d = .lt) : Sorted cf P (xs ++ data :: ys) where
  all d hd := by
    rcases List.mem_cons.mp (List.perm_middle.mem_iff.mp hd) with rfl | hd
    · exact hdata
    · exact h.all d hd
  pairwise := by
    obtain ⟨hxs, hys, hxy⟩ := List.pairwise_append.mp h.pairwise
    refine List.pairwise_append.mpr ⟨hxs, List.pairwise_cons.mpr ⟨habove, hys⟩, ?_⟩
    intro a ha b hb
    rcases List.mem_cons.mp hb with rfl | hb
    · rw [hcf.swap hdata (h.all a (List.mem_append_left _ ha)), hbelow a ha]
      rfl
    · exact hxy a ha b hb

theorem insert_eq {xs ys : List D} {data : D}
    (hindex : getIndexFromKey cf (xs ++ ys) data = (xs.length, false)) :
    insert cf (xs ++ ys) data = xs ++ data :: ys := by
  rw [insert, hindex]
  dsimp only
  rw [if_neg Bool.false_ne_true]
  split
  · rename_i hge
    rw [List.length_append] at hge
    have hnil : ys = [] := List.length_eq_zero_iff.mp (by omega)
    subst hnil
    simp
  · exact insertIdx_length xs ys data

theorem insert_cases {orderedList : List D} (hcf : TotalOn cf P) (h : Sorted cf P orderedList)
    {data : D} (hdata : P data) :
    (insert cf orderedList data = orderedList ∧ ∃ d ∈ orderedList, cf data d = .eq) ∨
      ((insert cf orderedList data).Perm (data :: orderedList) ∧
        Sorted cf P (insert cf orderedList data) ∧ ∀ d ∈ orderedList, cf data d ≠ .eq) := by
  have hmono := h.monotone hcf hdata
  have hiff := getIndexFromKey_eq_true_iff hmono
  have hsplit := getIndexFromKey_split hmono
  obtain ⟨⟨index, objectExists⟩, hresult⟩ :
      ∃ result, getIndexFromKey cf orderedList data = result := ⟨_, rfl⟩
  rw [hresult] at hiff hsplit
  cases objectExists with
  | true =>
    left
    refine ⟨?_, hiff.mp rfl⟩
    rw [insert, hresult]
    rfl
  | false =>
    right
    obtain ⟨xs, ys, rfl, hindex, hbelow, habove⟩ := hsplit rfl
    obtain rfl : index = xs.length := hindex
    rw [insert_eq hresult]
    refine ⟨List.perm_middle, h.insert_middle hcf hdata hbelow habove, ?_⟩
    intro d hd heq
    rcases List.mem_append.mp hd with hd | hd
    · rw [hbelow d hd] at heq
      cases heq
    · rw [habove d hd] at heq
      cases heq

theorem foldl_insert (hcf : TotalOn cf P) {rows : List D} (hrows : ∀ d ∈ rows, P d) :
    Sorted cf P (rows.foldl (insert cf) []) ∧ (rows.foldl (insert cf) []).Subperm rows ∧
      ((rows.foldl (insert cf) []).Perm rows ↔ rows.Pairwise fun a b => cf b a ≠ .eq) := by
  induction rows using List.reverseRecOn with
  | nil => exact ⟨⟨by simp, by simp⟩, .refl _, by simp⟩
  | append_singleton rows data ih =>
    have hdata : P data := hrows data (by simp)
    obtain ⟨hsorted, hsub, hiff⟩ := ih fun d hd => hrows d (List.mem_append_left _ hd)
    rw [List.foldl_concat]
    generalize rows.foldl (insert cf) [] = out at hsorted hsub hiff ⊢
    have hpairwise : (rows ++ [data]).Pairwise (fun a b => cf b a ≠ .eq) ↔
        rows.Pairwise (fun a b => cf b a ≠ .eq) ∧ ∀ a ∈ rows, cf data a ≠ .eq := by
      simp [List.pairwise_append]
    rw [hpairwise]
    rcases insert_cases hcf hsorted hdata with ⟨hsame, d, hd, heq⟩ | ⟨hperm, hnew, hne⟩
    · rw [hsame]
      refine ⟨hsorted, hsub.trans (List.sublist_append_left _ _).subperm, fun hall => ?_,
        fun ⟨_, hall⟩ => absurd heq (hall d (hsub.subset hd))⟩
      have hlength := hall.length_eq
      have hle := hsub.length_le
      rw [List.length_append, List.length_singleton] at hlength
      omega
    · have hlast : (rows ++ [data]).Perm (data :: rows) := List.perm_append_singleton _ _
      refine ⟨hnew, hperm.subperm.trans
        (((List.subperm_cons data).mpr hsub).trans hlast.symm.subperm), ?_⟩
      have hcons : (insert cf out data).Perm (rows ++ [data]) ↔ out.Perm rows := by
        refine Iff.trans ⟨fun h => hperm.symm.trans (h.trans hlast), fun h => ?_⟩
          (List.perm_cons data)
        exact hperm.trans (h.trans hlast.symm)
      rw [hcons, ← hiff]
      exact ⟨fun h => ⟨h, fun a ha => hne a (h.mem_iff.mpr ha)⟩, fun h => h.1⟩

theorem TotalOn.refl (h : TotalOn cf P) {a : D} (ha : P a) : cf a a = .eq := by
  have hswap := h.swap ha ha
  cases hcase : cf a a with
  | eq => rfl
  | lt =>
    rw [hcase] at hswap
    cases hswap
  | gt =>
    rw [hcase] at hswap
    cases hswap

theorem foldl_insert_found (hcf : TotalOn cf P) {rows : List D} (hrows : ∀ d ∈ rows, P d) :
    ∀ a ∈ rows, ∃ d ∈ rows.foldl (insert cf) [], cf a d = .eq := by
  induction rows using List.reverseRecOn with
  | nil =>
    intro a ha
    cases ha
  | append_singleton rows data ih =>
    have hdata : P data := hrows data (by simp)
    have hold : ∀ d ∈ rows, P d := fun d hd => hrows d (List.mem_append_left _ hd)
    have hsorted := (foldl_insert hcf hold).1
    rw [List.foldl_concat]
    intro a ha
    rcases insert_cases hcf hsorted hdata with ⟨hsame, d, hd, heq⟩ | ⟨hperm, -, -⟩
    · rw [hsame]
      rcases List.mem_append.mp ha with ha | ha
      · exact ih hold a ha
      · rw [List.mem_singleton.mp ha]
        exact ⟨d, hd, heq⟩
    · rcases List.mem_append.mp ha with ha | ha
      · obtain ⟨d, hd, heq⟩ := ih hold a ha
        exact ⟨d, hperm.mem_iff.mpr (List.mem_cons_of_mem _ hd), heq⟩
      · rw [List.mem_singleton.mp ha]
        exact ⟨data, hperm.mem_iff.mpr List.mem_cons_self, hcf.refl hdata⟩

end OrderedList

end SLikeNet
