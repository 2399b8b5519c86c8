import Mathlib.Algebra.BigOperators.Group.List.Basic
import Mathlib.Algebra.GroupWithZero.Nat
import Mathlib.Algebra.Order.BigOperators.Group.List
import SLikeNet.Library.FuelledLoop
import SLikeNet.TeamCounts

/-! The limit that `TM_World` puts on its teams while it balances them. -/

namespace SLikeNet

namespace TeamManager

open FuelledLoop

/-- The limits of the teams of a world. A `List` doubles an allocation of 16, which is an unsigned
int: it has at most 2 ^ 31 elements. -/
structure TeamLimits where
  limits : List ℕ
  size_le : limits.length ≤ 2 ^ 31

/-- The variables of `GetBalancedTeamLimit`; of a considered team the limit. -/
structure Considered where
  teams : List ℕ
  teamsCount : ℕ
  membersCount : ℕ
  additionalTeamsExcluded : Bool

/-- An unsigned difference: there is no result where it is not one. -/
def minus (n m : ℕ) : Option ℕ := if m ≤ n then some (n - m) else none

def excludeBody (balancedLimit : ℕ) : ℕ × Considered → Option (ℕ × Considered)
  | (i, s) =>
    let limit := s.teams.getD i 0
    if limit < balancedLimit then
      (minus s.membersCount limit).bind fun membersCount =>
        (minus s.teamsCount 1).map fun teamsCount =>
          (i, ⟨removeAtIndexFast s.teams i, teamsCount, membersCount, true⟩)
    else some (i + 1, s)

def excludeTeams (balancedLimit : ℕ) (s : Considered) : Option (ℕ × Considered) :=
  whileLoop (fun r => decide (r.1 < r.2.teams.length)) (excludeBody balancedLimit)
    (s.teams.length + 1) (0, { s with additionalTeamsExcluded := false })

/-- The quotient of the unsigned sum, as a `TeamMemberLimit`. -/
def balancedLimit (s : Considered) : ℕ :=
  (s.membersCount + (s.teamsCount - 1)) % 2 ^ 32 / s.teamsCount % 2 ^ 16

/-- The loop of `GetBalancedTeamLimit`; a division by 0 has no result. -/
def balancedLimitLoop : ℕ → Considered → Option ℕ
  | 0, _ => none
  | fuel + 1, s =>
    if s.teamsCount = 0 then none
    else (excludeTeams (balancedLimit s) s).bind fun r =>
      if r.2.additionalTeamsExcluded = true ∧ 0 < r.2.teamsCount then balancedLimitLoop fuel r.2
      else some (balancedLimit s)

def getBalancedTeamLimit (fuel : ℕ) (balanceTeamsIsActive : Bool) (teams : TeamLimits)
    (membersCount : ℕ) : Option ℕ :=
  if teams.limits.length = 0 then some 0
  else if balanceTeamsIsActive = false then some 65535
  else balancedLimitLoop fuel ⟨teams.limits, teams.limits.length, membersCount, false⟩

/-- The places that there are on the teams under a uniform cap. -/
def places (limits : List ℕ) (cap : ℕ) : ℕ := (limits.map (min · cap)).sum

/-! ### Excluded teams -/

variable {limits excluded : List ℕ} {members bound i : ℕ} {s : Considered}

/-- The teams are the excluded ones and the considered ones; a cap below `bound` that excludes a
team leaves too few places on the considered ones. -/
structure Split (limits : List ℕ) (members bound : ℕ) (s : Considered) (excluded : List ℕ) :
    Prop where
  perm : (excluded ++ s.teams).Perm limits
  members : s.membersCount + excluded.sum = members
  count : s.teamsCount = s.teams.length
  below : ∀ limit ∈ excluded, limit < bound
  short : ∀ cap, cap < bound → cap * s.teams.length < s.membersCount

theorem places_append (limits limits' : List ℕ) (cap : ℕ) :
    places (limits ++ limits') cap = places limits cap + places limits' cap := by
  simp [places]

theorem places_le_sum (limits : List ℕ) (cap : ℕ) : places limits cap ≤ limits.sum := by
  induction limits with
  | nil => exact Nat.le_refl _
  | cons limit limits ih =>
    have hle := Nat.min_le_left limit cap
    simp only [places, List.map_cons, List.sum_cons] at ih ⊢
    omega

theorem places_le_mul (limits : List ℕ) (cap : ℕ) : places limits cap ≤ cap * limits.length := by
  induction limits with
  | nil => exact Nat.le_refl _
  | cons limit limits ih =>
    have hle := Nat.min_le_right limit cap
    simp only [places, List.map_cons, List.sum_cons, List.length_cons, Nat.mul_succ] at ih ⊢
    omega

theorem places_eq_sum {cap : ℕ} (h : ∀ limit ∈ limits, limit ≤ cap) :
    places limits cap = limits.sum := by
  rw [places, List.map_congr_left fun limit hmem => Nat.min_eq_left (h limit hmem), List.map_id']

theorem places_eq_mul {cap : ℕ} (h : ∀ limit ∈ limits, cap ≤ limit) :
    places limits cap = cap * limits.length := by
  rw [places, List.map_congr_left fun limit hmem => Nat.min_eq_right (h limit hmem),
    List.map_const', List.sum_replicate_nat, Nat.mul_comm]

theorem Split.places_eq (h : Split limits members bound s excluded) (cap : ℕ) :
    places limits cap = places excluded cap + places s.teams cap := by
  rw [← places_append, places, places]
  exact ((h.perm.map _).sum_eq).symm

theorem Split.fair (h : Split limits members bound s excluded)
    (hle : s.membersCount ≤ bound * s.teams.length) (hteams : ∀ limit ∈ s.teams, bound ≤ limit) :
    IsLeast {cap | members ≤ places limits cap} bound := by
  have hmembers := h.members
  constructor
  · have hexcluded := places_eq_sum fun limit hmem => (h.below limit hmem).le
    show members ≤ places limits bound
    rw [h.places_eq, hexcluded, places_eq_mul hteams]
    omega
  · intro cap hcap
    by_contra hlt
    have hshort := h.short cap (Nat.lt_of_not_le hlt)
    have hexcluded := places_le_sum excluded cap
    have hteams := places_le_mul s.teams cap
    have hcap : members ≤ places limits cap := hcap
    rw [h.places_eq] at hcap
    omega

theorem take_removeAtIndexFast {teams : List ℕ} (hi : i < teams.length) :
    (removeAtIndexFast teams i).take i = teams.take i := by
  cases teams using List.reverseRecOn with
  | nil => rfl
  | append_singleton teams last =>
    rw [List.length_append, List.length_singleton] at hi
    have hset : removeAtIndexFast (teams ++ [last]) i =
        ((teams ++ [last]).set i last).dropLast := by simp [removeAtIndexFast]
    rw [hset, List.dropLast_eq_take, List.take_take, List.length_set, List.length_append,
      List.length_singleton, Nat.min_eq_left (by omega), List.take_set_of_le (Nat.le_refl i)]

theorem Split.exclude (h : Split limits members bound s excluded) (hi : i < s.teams.length)
    (hlt : s.teams[i] < bound) :
    s.teams[i] ≤ s.membersCount ∧ 1 ≤ s.teamsCount ∧
      Split limits members bound ⟨removeAtIndexFast s.teams i, s.teamsCount - 1,
        s.membersCount - s.teams[i], true⟩ (s.teams[i] :: excluded) := by
  have hperm := removeAtIndexFast_perm hi
  have hlength := hperm.length_eq
  rw [List.length_eraseIdx_of_lt hi] at hlength
  -- The greatest cap below the bound leaves too few places even with the team.
  have hshort : ∀ cap, cap < bound → cap * (s.teams.length - 1) + s.teams[i] < s.membersCount := by
    intro cap hcap
    have hgreatest := h.short (bound - 1) (by omega)
    have hcap' : cap * (s.teams.length - 1) ≤ (bound - 1) * (s.teams.length - 1) :=
      Nat.mul_le_mul_right _ (by omega)
    have hsplit : (bound - 1) * s.teams.length =
        (bound - 1) * (s.teams.length - 1) + (bound - 1) := by
      rw [← Nat.mul_succ, Nat.succ_eq_add_one, Nat.sub_add_cancel (by omega)]
    omega
  have hle : s.teams[i] ≤ s.membersCount := by
    have hnone := hshort 0 (by omega)
    omega
  have hmembers := h.members
  have hcount := h.count
  refine ⟨hle, by omega, ?_, ?_, ?_, ?_, ?_⟩
  · refine List.Perm.trans ?_ h.perm
    have hinsert : (s.teams[i] :: s.teams.eraseIdx i).Perm s.teams :=
      List.getElem_cons_eraseIdx_perm hi
    have hcons := (hperm.append_left excluded).cons s.teams[i]
    exact (hcons.trans List.perm_middle.symm).trans (hinsert.append_left excluded)
  · show s.membersCount - s.teams[i] + (s.teams[i] :: excluded).sum = members
    rw [List.sum_cons]
    omega
  · show s.teamsCount - 1 = (removeAtIndexFast s.teams i).length
    omega
  · intro limit hmem
    obtain rfl | hmem := List.mem_cons.mp hmem
    · exact hlt
    · exact h.below limit hmem
  · intro cap hcap
    have hlast := hshort cap hcap
    show cap * (removeAtIndexFast s.teams i).length < s.membersCount - s.teams[i]
    rw [hlength]
    omega

/-! ### The loops -/

/-- The teams before `i` are not excluded, and nothing has changed if no team is. -/
structure Scanned (limits : List ℕ) (members bound : ℕ) (start : Considered)
    (r : ℕ × Considered) : Prop where
  split : ∃ excluded, Split limits members bound r.2 excluded
  le : r.1 ≤ r.2.teams.length
  kept : ∀ limit ∈ r.2.teams.take r.1, bound ≤ limit
  same : r.2.additionalTeamsExcluded = false → r.2.teams = start.teams ∧
    r.2.membersCount = start.membersCount
  fewer : r.2.additionalTeamsExcluded = true → r.2.teams.length < start.teams.length
  length_le : r.2.teams.length ≤ start.teams.length

theorem Scanned.excludeBody {start : Considered} {r : ℕ × Considered}
    (h : Scanned limits members bound start r) (hi : r.1 < r.2.teams.length) :
    Yields True (fun r' => Scanned limits members bound start r' ∧
      r'.2.teams.length - r'.1 < r.2.teams.length - r.1) (excludeBody bound r) := by
  obtain ⟨i, s⟩ := r
  obtain ⟨⟨excluded, hsplit⟩, hle, hkept, hsame, hfewer, hlength_le⟩ := h
  dsimp only at hi hsplit hle hkept hsame hfewer hlength_le
  have hget : s.teams.getD i 0 = s.teams[i] := List.getD_eq_getElem _ _ hi
  rw [TeamManager.excludeBody, hget]
  dsimp only
  split
  · next hlt =>
    obtain ⟨hminus, hcount, hsplit'⟩ := hsplit.exclude hi hlt
    have hlength := (removeAtIndexFast_perm hi).length_eq
    rw [List.length_eraseIdx_of_lt hi] at hlength
    rw [minus, if_pos hminus, minus, if_pos hcount, Option.bind_some, Option.map_some]
    have hle' : i ≤ (removeAtIndexFast s.teams i).length := by omega
    refine ⟨⟨⟨_, hsplit'⟩, hle', ?_, nofun, fun _ => ?_, ?_⟩, ?_⟩
    · intro limit hmem
      rw [take_removeAtIndexFast hi] at hmem
      exact hkept limit hmem
    all_goals
      dsimp only
      omega
  · next hnot =>
    refine ⟨⟨⟨_, hsplit⟩, hi, ?_, hsame, hfewer, hlength_le⟩, ?_⟩
    · intro limit hmem
      rw [List.take_succ_eq_append_getElem hi, List.mem_append, List.mem_singleton] at hmem
      obtain hmem | rfl := hmem
      · exact hkept limit hmem
      · exact Nat.le_of_not_lt hnot
    · dsimp only
      omega

theorem excludeTeams_yields (h : Split limits members bound s excluded) :
    ∃ r, excludeTeams bound s = some r ∧ Scanned limits members bound s r ∧
      r.2.teams.length ≤ r.1 := by
  have hstart : Scanned limits members bound s (0, { s with additionalTeamsExcluded := false }) :=
    ⟨⟨excluded, h.perm, h.members, h.count, h.below, h.short⟩, Nat.zero_le _, nofun,
      fun _ => ⟨rfl, rfl⟩, nofun, Nat.le_refl _⟩
  obtain ⟨r, hr, hscanned, hend⟩ := (whileLoop_yields (Scanned limits members bound s)
    (fun r => r.2.teams.length - r.1) (fun r hr hcond => hr.excludeBody (of_decide_eq_true hcond))
    (s.teams.length + 1) _ hstart fun _ => Nat.lt_succ_self _).exists trivial
  exact ⟨r, hr, hscanned, Nat.le_of_not_lt (of_decide_eq_false hend)⟩

theorem lt_ceil_iff {m t cap : ℕ} (ht : 0 < t) : cap < (m + (t - 1)) / t ↔ cap * t < m := by
  rw [Nat.lt_iff_add_one_le, Nat.le_div_iff_mul_le ht, Nat.succ_mul]
  omega

theorem balancedLimit_eq (hcount : s.teamsCount = s.teams.length) (hpos : 0 < s.teams.length)
    (hteams : s.teams.length ≤ 2 ^ 31) (hmembers : s.membersCount < 2 ^ 16) :
    balancedLimit s = (s.membersCount + (s.teams.length - 1)) / s.teams.length := by
  have hle : (s.membersCount + (s.teams.length - 1)) / s.teams.length ≤ s.membersCount := by
    by_contra hlt
    have hshort := (lt_ceil_iff hpos).mp (Nat.lt_of_not_le hlt)
    have hmul := Nat.le_mul_of_pos_right s.membersCount hpos
    omega
  have hsum : s.membersCount + (s.teams.length - 1) < 2 ^ 32 := by omega
  rw [balancedLimit, hcount, Nat.mod_eq_of_lt hsum, Nat.mod_eq_of_lt (by omega)]

/-- The limit of the next pass excludes no team for less: what it leaves out, the ones before it
have left out. -/
theorem Split.next (h : Split limits members bound s excluded) (hpos : 0 < s.teams.length)
    (hsize : limits.length ≤ 2 ^ 31) (hmembers : members < 2 ^ 16) :
    balancedLimit s = (s.membersCount + (s.teams.length - 1)) / s.teams.length ∧
      Split limits members (balancedLimit s) s excluded := by
  have hlength := h.perm.length_eq
  have hsum := h.members
  rw [List.length_append] at hlength
  have heq := balancedLimit_eq h.count hpos (by omega) (by omega)
  refine ⟨heq, h.perm, h.members, h.count, fun limit hmem => ?_, fun cap hcap => ?_⟩
  · rw [heq, lt_ceil_iff hpos]
    exact h.short limit (h.below limit hmem)
  · rwa [heq, lt_ceil_iff hpos] at hcap

theorem Scanned.fair {r : ℕ × Considered} (h : Scanned limits members bound s r)
    (hend : r.2.teams.length ≤ r.1) (hceil : s.membersCount ≤ bound * s.teams.length)
    (hplaces : members ≤ limits.sum)
    (hlast : ¬ (r.2.additionalTeamsExcluded = true ∧ 0 < r.2.teamsCount)) :
    IsLeast {cap | members ≤ places limits cap} bound := by
  obtain ⟨excluded, hsplit⟩ := h.split
  have hteams : ∀ limit ∈ r.2.teams, bound ≤ limit := by
    intro limit hmem
    apply h.kept limit
    rwa [List.take_of_length_le hend]
  refine hsplit.fair ?_ hteams
  cases hexcluded : r.2.additionalTeamsExcluded with
  | false =>
    obtain ⟨hsame, hsame'⟩ := h.same hexcluded
    rw [hsame, hsame']
    exact hceil
  | true =>
    have hnone : r.2.teams = [] := by
      have hcount := hsplit.count
      refine List.length_eq_zero_iff.mp (Nat.eq_zero_of_not_pos fun hpos => ?_)
      exact hlast ⟨hexcluded, by omega⟩
    have hsum := hsplit.perm.sum_eq
    have hmembers := hsplit.members
    rw [hnone, List.append_nil] at hsum
    omega

theorem balancedLimitLoop_spec (hsize : limits.length ≤ 2 ^ 31) (hmembers : members < 2 ^ 16)
    (fuel : ℕ) (h : Split limits members bound s excluded)
    (hpos : 0 < s.teams.length) (hfuel : s.teams.length < fuel) :
    ∃ limit, balancedLimitLoop fuel s = some limit ∧ (members ≤ limits.sum →
      IsLeast {cap | members ≤ places limits cap} limit) := by
  induction fuel generalizing s bound excluded with
  | zero => omega
  | succ fuel ih =>
    have hcount := h.count
    obtain ⟨heq, hnext⟩ := h.next hpos hsize hmembers
    obtain ⟨r, hr, hscanned, hend⟩ := excludeTeams_yields hnext
    rw [balancedLimitLoop, if_neg (by omega), hr, Option.bind_some]
    split
    · next hmore =>
      obtain ⟨excluded', hsplit⟩ := hscanned.split
      have hfewer := hscanned.fewer hmore.1
      have hcount' := hsplit.count
      exact ih hsplit (by omega) (by omega)
    · next hlast =>
      refine ⟨_, rfl, fun hplaces => hscanned.fair hend ?_ hplaces hlast⟩
      by_contra hlt
      have hceil := (lt_ceil_iff hpos).mpr (Nat.lt_of_not_le hlt)
      rw [← heq] at hceil
      exact Nat.lt_irrefl _ hceil

/-! ### Any number of members -/

theorem balancedLimit_le (s : Considered) :
    balancedLimit s ≤ (s.membersCount + (s.teamsCount - 1)) / s.teamsCount := by
  rw [balancedLimit]
  exact (Nat.mod_le _ _).trans (Nat.div_le_div_right (Nat.mod_le _ _))

theorem split_start (hcount : s.teamsCount = s.teams.length) (hpos : 0 < s.teams.length) :
    Split s.teams s.membersCount (balancedLimit s) s [] := by
  refine ⟨List.Perm.refl _, Nat.add_zero _, hcount, fun _ hmem => absurd hmem List.not_mem_nil,
    fun cap hcap => ?_⟩
  rw [← lt_ceil_iff hpos, ← hcount]
  exact hcap.trans_le (balancedLimit_le s)

theorem exists_balancedLimitLoop (fuel : ℕ) (hcount : s.teamsCount = s.teams.length)
    (hpos : 0 < s.teams.length) (hfuel : s.teams.length < fuel) :
    ∃ limit, balancedLimitLoop fuel s = some limit := by
  induction fuel generalizing s with
  | zero => omega
  | succ fuel ih =>
    obtain ⟨r, hr, hscanned, -⟩ := excludeTeams_yields (split_start hcount hpos)
    rw [balancedLimitLoop, if_neg (by omega), hr, Option.bind_some]
    split
    · next hmore =>
      obtain ⟨excluded', hsplit⟩ := hscanned.split
      have hfewer := hscanned.fewer hmore.1
      have hcount' := hsplit.count
      exact ih hcount' (by omega) (by omega)
    · exact ⟨_, rfl⟩

theorem exists_getBalancedTeamLimit (balanceTeamsIsActive : Bool) (teams : TeamLimits)
    (membersCount : ℕ) {fuel : ℕ} (hfuel : teams.limits.length < fuel) :
    ∃ limit, getBalancedTeamLimit fuel balanceTeamsIsActive teams membersCount = some limit := by
  rw [getBalancedTeamLimit]
  split
  · exact ⟨_, rfl⟩
  · split
    · exact ⟨_, rfl⟩
    · next hteams _ => exact exists_balancedLimitLoop fuel rfl (Nat.pos_of_ne_zero hteams) hfuel

/-- `GetBalancedTeamLimit` returns, and where there is a place for every member the limit is the
least one under which there is. -/
theorem getBalancedTeamLimit_fair (teams : TeamLimits) (membersCount fuel : ℕ)
    (hteams : 0 < teams.limits.length) (hmembers : membersCount < 2 ^ 16)
    (hfuel : teams.limits.length < fuel) :
    ∃ limit, getBalancedTeamLimit fuel true teams membersCount = some limit ∧
      (membersCount ≤ teams.limits.sum →
        IsLeast {cap | membersCount ≤ places teams.limits cap} limit) := by
  rw [getBalancedTeamLimit, if_neg (by omega), if_neg nofun]
  have hstart : Split teams.limits membersCount 0
      ⟨teams.limits, teams.limits.length, membersCount, false⟩ [] :=
    ⟨List.Perm.refl _, Nat.add_zero _, rfl, fun _ hmem => absurd hmem List.not_mem_nil,
      fun _ hcap => absurd hcap (Nat.not_lt_zero _)⟩
  exact balancedLimitLoop_spec teams.size_le hmembers fuel hstart hteams hfuel

/-- Seven members on teams for one, for four and for nine of them. -/
theorem getBalancedTeamLimit_fair_once :
    ∃ limit, getBalancedTeamLimit 4 true ⟨[1, 4, 9], by decide⟩ 7 = some limit ∧
      (7 ≤ [1, 4, 9].sum → IsLeast {cap | 7 ≤ places [1, 4, 9] cap} limit) :=
  getBalancedTeamLimit_fair ⟨[1, 4, 9], by decide⟩ 7 4 (by decide) (by decide) (by decide)

example : getBalancedTeamLimit 4 true ⟨[1, 4, 9], by decide⟩ 7 = some 3 := by decide

end TeamManager

end SLikeNet
