import SLikeNet.TeamBalancer
import Mathlib.Algebra.BigOperators.Group.Finset.Basic
import Mathlib.Algebra.BigOperators.Group.Finset.Piecewise
import Mathlib.Algebra.Order.BigOperators.Group.Finset
import Mathlib.Data.List.GetD
import Mathlib.Data.List.Induction
import Mathlib.Data.List.Nodup
import Mathlib.Data.List.Perm.Basic

/-! The counts of the teams are those of their members and within the limits. -/

namespace SLikeNet

open FuelledLoop

theorem countP_set_add {α : Type*} (p : α → Bool) {xs : List α} {i : ℕ} (hi : i < xs.length)
    (x : α) :
    (xs.set i x).countP p + (if p xs[i] then 1 else 0) =
      xs.countP p + if p x then 1 else 0 := by
  have hle := List.boole_getElem_le_countP (p := p) hi
  rw [List.countP_set hi]
  omega

theorem removeAtIndexFast_perm {α : Type*} {xs : List α} {i : ℕ} (hi : i < xs.length) :
    (removeAtIndexFast xs i).Perm (xs.eraseIdx i) := by
  cases xs using List.reverseRecOn with
  | nil => simp at hi
  | append_singleton ys last =>
    have hlast : removeAtIndexFast (ys ++ [last]) i = ((ys ++ [last]).set i last).dropLast := by
      simp [removeAtIndexFast]
    rw [hlast]
    by_cases hlt : i < ys.length
    · rw [List.set_append_left _ _ hlt, List.dropLast_concat, List.eraseIdx_append_of_lt_length hlt]
      have hcons := List.set_perm_cons_eraseIdx hlt last
      exact hcons.trans (List.perm_append_singleton last _).symm
    · obtain rfl : i = ys.length := by
        rw [List.length_append, List.length_singleton] at hi
        omega
      simp [List.set_append_right, List.eraseIdx_append_of_length_le]

theorem getD_modify {xs : List ℕ} {i : ℕ} (hi : i < xs.length) (f : ℕ → ℕ) (j : ℕ) :
    (xs.modify i f).getD j 0 = if i = j then f (xs.getD j 0) else xs.getD j 0 := by
  rw [List.getD_eq_getElem?_getD, List.getD_eq_getElem?_getD, List.getElem?_modify]
  by_cases hj : i = j
  · subst hj
    simp [hi]
  · simp [hj]

/-- The member is on one of the teams, and wants to go to one of them or to none. -/
structure TeamMember.Valid (teams : ℕ) (m : TeamMember) : Prop where
  current : m.currentTeam < teams
  requested : m.requestedTeam < teams ∨ m.requestedTeam = unassignedTeamId

namespace TeamBalancer

/-- The number of members that are on a team. -/
def membersOn (s : TeamBalancer) (team : ℕ) : ℕ :=
  s.teamMembers.countP fun m => m.currentTeam == team

def keys (s : TeamBalancer) : List (ℕ × ℕ) :=
  s.teamMembers.map fun m => (m.memberGuid, m.memberId)

/-- The host's teams are the numbers below that of `UNASSIGNED_TEAM_ID`, there is one, and a limit
is an `unsigned short`. -/
structure WellCounted (s : TeamBalancer) : Prop where
  teams : s.teamLimits ≠ []
  teamIds : s.teamLimits.length ≤ unassignedTeamId
  limits : ∀ team, s.limit team < 65536
  lengths : s.teamMemberCounts.length = s.teamLimits.length
  counts : ∀ team < s.teamLimits.length, s.count team = s.membersOn team
  within : ∀ team < s.teamLimits.length, s.count team ≤ s.limit team
  valid : ∀ m ∈ s.teamMembers, m.Valid s.teamLimits.length
  distinct : s.keys.Nodup

structure SameSettings (s s' : TeamBalancer) : Prop where
  algorithm : s'.defaultAssigmentAlgorithm = s.defaultAssigmentAlgorithm
  force : s'.forceTeamsToBeEven = s.forceTeamsToBeEven
  lock : s'.lockTeams = s.lockTeams
  teamLimits : s'.teamLimits = s.teamLimits

theorem SameSettings.refl (s : TeamBalancer) : SameSettings s s := ⟨rfl, rfl, rfl, rfl⟩

theorem SameSettings.trans {s s' s'' : TeamBalancer} (h : SameSettings s s')
    (h' : SameSettings s' s'') : SameSettings s s'' where
  algorithm := h'.algorithm.trans h.algorithm
  force := h'.force.trans h.force
  lock := h'.lock.trans h.lock
  teamLimits := h'.teamLimits.trans h.teamLimits

theorem SameSettings.limit {s s' : TeamBalancer} (h : SameSettings s s') (team : ℕ) :
    s'.limit team = s.limit team := by
  rw [TeamBalancer.limit, TeamBalancer.limit, h.teamLimits]

/-- The members have only changed teams and requests. -/
structure Rearranged (s s' : TeamBalancer) : Prop extends SameSettings s s' where
  keys : s'.keys = s.keys

theorem Rearranged.refl (s : TeamBalancer) : Rearranged s s := ⟨SameSettings.refl s, rfl⟩

theorem Rearranged.trans {s s' s'' : TeamBalancer} (h : Rearranged s s')
    (h' : Rearranged s' s'') : Rearranged s s'' where
  toSameSettings := h.toSameSettings.trans h'.toSameSettings
  keys := h'.keys.trans h.keys

theorem length_keys (s : TeamBalancer) : s.keys.length = s.teamMembers.length :=
  List.length_map _

theorem Rearranged.length {s s' : TeamBalancer} (h : Rearranged s s') :
    s'.teamMembers.length = s.teamMembers.length := by
  rw [← length_keys, ← length_keys, h.keys]

theorem member_eq {s : TeamBalancer} {i : ℕ} (hi : i < s.teamMembers.length) :
    s.member i = s.teamMembers[i] := List.getD_eq_getElem _ _ hi

theorem member_mem {s : TeamBalancer} {i : ℕ} (hi : i < s.teamMembers.length) :
    s.member i ∈ s.teamMembers := by
  rw [member_eq hi]
  exact List.getElem_mem hi

theorem WellCounted.current_member {s : TeamBalancer} (h : WellCounted s) {i : ℕ}
    (hi : i < s.teamMembers.length) : (s.member i).currentTeam < s.teamLimits.length :=
  (h.valid _ (member_mem hi)).current

theorem sum_membersOn {s : TeamBalancer} (h : WellCounted s) :
    ∑ team ∈ Finset.range s.teamLimits.length, s.membersOn team = s.teamMembers.length := by
  have hcount : ∀ (members : List TeamMember) (n : ℕ), (∀ m ∈ members, m.currentTeam < n) →
      ∑ team ∈ Finset.range n, (members.countP fun m => m.currentTeam == team) =
        members.length := by
    intro members n hm
    induction members with
    | nil => simp
    | cons m members ih =>
      simp only [List.countP_cons, beq_iff_eq, List.length_cons]
      rw [Finset.sum_add_distrib, ih fun m' hm' => hm m' (List.mem_cons_of_mem m hm'),
        Finset.sum_ite_eq, if_pos (Finset.mem_range.mpr (hm m List.mem_cons_self))]
  exact hcount s.teamMembers _ fun m hm => (h.valid m hm).current

theorem membersOn_pos {s : TeamBalancer} {i : ℕ} (hi : i < s.teamMembers.length) :
    0 < s.membersOn (s.member i).currentTeam := by
  apply List.countP_pos_iff.mpr
  exact ⟨s.member i, member_mem hi, by simp⟩

/-! ### What the messages and the draws leave unchanged -/

theorem WellCounted.congr {s s' : TeamBalancer} (h : WellCounted s)
    (hlimits : s'.teamLimits = s.teamLimits) (hcounts : s'.teamMemberCounts = s.teamMemberCounts)
    (hmembers : s'.teamMembers = s.teamMembers) : WellCounted s' := by
  have hon : ∀ team, s'.membersOn team = s.membersOn team := by
    intro team
    rw [membersOn, membersOn, hmembers]
  have hcount : ∀ team, s'.count team = s.count team := by
    intro team
    rw [count, count, hcounts]
  have hlimit : ∀ team, s'.limit team = s.limit team := by
    intro team
    rw [limit, limit, hlimits]
  constructor
  · exact hlimits ▸ h.teams
  · exact hlimits ▸ h.teamIds
  · exact fun team => (hlimit team).trans_lt (h.limits team)
  · rw [hlimits, hcounts, h.lengths]
  · intro team hteam
    rw [hcount, hon, h.counts team (hlimits ▸ hteam)]
  · intro team hteam
    rw [hcount, hlimit]
    exact h.within team (hlimits ▸ hteam)
  · rw [hlimits, hmembers]
    exact h.valid
  · rw [keys, hmembers]
    exact h.distinct

theorem notifyTeamAssigment_eq (s : TeamBalancer) (i : ℕ) :
    ∃ sent, s.notifyTeamAssigment i = { s with sent := sent } := by
  rw [notifyTeamAssigment]
  by_cases hi : s.teamMembers.length ≤ i
  · exact ⟨s.sent, if_pos hi⟩
  · exact ⟨_, if_neg hi⟩

theorem WellCounted.notifyTeamAssigment {s : TeamBalancer} (h : WellCounted s) (i : ℕ) :
    WellCounted (s.notifyTeamAssigment i) := by
  obtain ⟨sent, hs⟩ := notifyTeamAssigment_eq s i
  rw [hs]
  exact h.congr rfl rfl rfl

theorem rearranged_notifyTeamAssigment (s : TeamBalancer) (i : ℕ) :
    Rearranged s (s.notifyTeamAssigment i) := by
  obtain ⟨sent, hs⟩ := notifyTeamAssigment_eq s i
  rw [hs]
  exact ⟨⟨rfl, rfl, rfl, rfl⟩, rfl⟩

@[simp]
theorem teamMembers_notifyTeamAssigment (s : TeamBalancer) (i : ℕ) :
    (s.notifyTeamAssigment i).teamMembers = s.teamMembers := by
  obtain ⟨sent, hs⟩ := notifyTeamAssigment_eq s i
  rw [hs]

@[simp]
theorem membersOn_notifyTeamAssigment (s : TeamBalancer) (i team : ℕ) :
    (s.notifyTeamAssigment i).membersOn team = s.membersOn team := by
  rw [membersOn, teamMembers_notifyTeamAssigment, membersOn]

@[simp]
theorem count_notifyTeamAssigment (s : TeamBalancer) (i team : ℕ) :
    (s.notifyTeamAssigment i).count team = s.count team := by
  obtain ⟨sent, hs⟩ := notifyTeamAssigment_eq s i
  rw [hs]
  rfl

/-! ### One member changes -/

theorem map_key_set {s : TeamBalancer} {i : ℕ} {m : TeamMember} (hi : i < s.teamMembers.length)
    (hguid : m.memberGuid = (s.member i).memberGuid) (hid : m.memberId = (s.member i).memberId) :
    ((s.teamMembers.set i m).map fun m' => (m'.memberGuid, m'.memberId)) = s.keys := by
  have hi' : i < (s.teamMembers.map fun m' => (m'.memberGuid, m'.memberId)).length := by
    rw [List.length_map]
    exact hi
  have hkey : (m.memberGuid, m.memberId) =
      (s.teamMembers.map fun m' => (m'.memberGuid, m'.memberId))[i] := by
    rw [hguid, hid, member_eq hi, List.getElem_map]
  rw [List.map_set, hkey]
  exact List.set_getElem_self hi'

theorem countP_set_member {s : TeamBalancer} {i : ℕ} (hi : i < s.teamMembers.length)
    (m : TeamMember) (team : ℕ) :
    ((s.teamMembers.set i m).countP fun m' => m'.currentTeam == team) +
        (if (s.member i).currentTeam = team then 1 else 0) =
      s.membersOn team + if m.currentTeam = team then 1 else 0 := by
  have hset := countP_set_add (fun m' : TeamMember => m'.currentTeam == team) hi m
  rw [← member_eq hi] at hset
  rw [membersOn]
  simpa only [beq_iff_eq] using hset

theorem WellCounted.update {s s' : TeamBalancer} (h : WellCounted s)
    (hlimits : s'.teamLimits = s.teamLimits)
    (hlengths : s'.teamMemberCounts.length = s.teamMemberCounts.length)
    (hcounts : ∀ team < s.teamLimits.length,
      s'.count team = s'.membersOn team ∧ s'.count team ≤ s.limit team)
    (hvalid : ∀ m ∈ s'.teamMembers, m.Valid s.teamLimits.length) (hdistinct : s'.keys.Nodup) :
    WellCounted s' := by
  have hlimit : ∀ team, s'.limit team = s.limit team := by
    intro team
    rw [limit, limit, hlimits]
  constructor
  · exact hlimits ▸ h.teams
  · exact hlimits ▸ h.teamIds
  · exact fun team => (hlimit team).trans_lt (h.limits team)
  · rw [hlimits, hlengths, h.lengths]
  · exact fun team hteam => (hcounts team (hlimits ▸ hteam)).1
  · intro team hteam
    rw [hlimit]
    exact (hcounts team (hlimits ▸ hteam)).2
  · exact hlimits ▸ hvalid
  · exact hdistinct

theorem valid_set {members : List TeamMember} {teams : ℕ} (h : ∀ m ∈ members, m.Valid teams)
    {i : ℕ} {m : TeamMember} (hm : m.Valid teams) :
    ∀ m' ∈ members.set i m, m'.Valid teams := by
  intro m' hm'
  rcases List.mem_or_eq_of_mem_set hm' with hm' | rfl
  · exact h m' hm'
  · exact hm

theorem countUp_eq {count : ℕ} (h : count + 1 < 65536) : countUp count = count + 1 :=
  Nat.mod_eq_of_lt h

theorem countDown_eq {count : ℕ} (h : 0 < count) (hlt : count < 65536) :
    countDown count = count - 1 := by
  rw [countDown]
  omega

theorem membersOn_switchMemberTeam {s : TeamBalancer} {i : ℕ} (hi : i < s.teamMembers.length)
    (destinationTeam team : ℕ) :
    (s.switchMemberTeam i destinationTeam).membersOn team +
        (if (s.member i).currentTeam = team then 1 else 0) =
      s.membersOn team + if destinationTeam = team then 1 else 0 :=
  countP_set_member hi _ team

theorem rearranged_switchMemberTeam {s : TeamBalancer} {i : ℕ} (hi : i < s.teamMembers.length)
    (destinationTeam : ℕ) : Rearranged s (s.switchMemberTeam i destinationTeam) :=
  ⟨⟨rfl, rfl, rfl, rfl⟩, map_key_set hi rfl rfl⟩

theorem WellCounted.switchMemberTeam {s : TeamBalancer} (h : WellCounted s) {i : ℕ}
    (hi : i < s.teamMembers.length) {destinationTeam : ℕ}
    (hteam : destinationTeam < s.teamLimits.length)
    (hroom : destinationTeam = (s.member i).currentTeam ∨
      s.count destinationTeam < s.limit destinationTeam) :
    WellCounted (s.switchMemberTeam i destinationTeam) := by
  have hold := h.current_member hi
  have hcount : ∀ team < s.teamLimits.length,
      (s.switchMemberTeam i destinationTeam).count team =
          (s.switchMemberTeam i destinationTeam).membersOn team ∧
        (s.switchMemberTeam i destinationTeam).count team ≤ s.limit team := by
    intro team hlt
    have hon := membersOn_switchMemberTeam hi destinationTeam team
    have hpos := membersOn_pos hi
    have hbound := h.limits team
    have hwithin := h.within team hlt
    have hcounts := h.counts team hlt
    have heq : (s.switchMemberTeam i destinationTeam).count team =
        if destinationTeam = team then
          countUp (if (s.member i).currentTeam = team then countDown (s.count team)
            else s.count team)
        else if (s.member i).currentTeam = team then countDown (s.count team)
        else s.count team := by
      rw [count, TeamBalancer.switchMemberTeam, getD_modify (by simpa [h.lengths] using hteam),
        getD_modify (by simpa [h.lengths] using hold)]
      rfl
    rw [heq]
    by_cases hc : (s.member i).currentTeam = team
    · rw [hc] at hpos
      rw [if_pos hc] at hon ⊢
      rw [countDown_eq (by omega) (by omega)]
      by_cases hd : destinationTeam = team
      · rw [if_pos hd] at hon ⊢
        rw [countUp_eq (by omega)]
        omega
      · rw [if_neg hd] at hon ⊢
        omega
    · rw [if_neg hc] at hon ⊢
      by_cases hd : destinationTeam = team
      · have hlt' : s.count team < s.limit team := by
          rcases hroom with hroom | hroom
          · exact absurd (hroom.symm.trans hd) hc
          · exact hd ▸ hroom
        rw [if_pos hd] at hon ⊢
        rw [countUp_eq (by omega)]
        omega
      · rw [if_neg hd] at hon ⊢
        omega
  refine h.update rfl ?_ hcount ?_ ?_
  · simp [TeamBalancer.switchMemberTeam]
  · refine valid_set h.valid ⟨hteam, ?_⟩
    by_cases hr : (s.member i).requestedTeam = destinationTeam
    · exact Or.inr (if_pos hr)
    · rw [if_neg hr]
      exact (h.valid _ (member_mem hi)).requested
  · rw [(rearranged_switchMemberTeam hi destinationTeam).keys]
    exact h.distinct

/-! ### Two members swap -/

/-- The first of the two assignments of a swap. -/
def halfSwap (s : TeamBalancer) (i j : ℕ) : TeamBalancer :=
  { s with
    teamMembers := s.teamMembers.set i
      { s.member i with
        currentTeam := (s.member j).currentTeam
        requestedTeam := unassignedTeamId } }

theorem member_halfSwap {s : TeamBalancer} (i : ℕ) {j : ℕ} (hj : j < s.teamMembers.length) :
    ((s.halfSwap i j).member j).currentTeam = (s.member j).currentTeam ∧
      ((s.halfSwap i j).member j).memberGuid = (s.member j).memberGuid ∧
        ((s.halfSwap i j).member j).memberId = (s.member j).memberId := by
  have hj' : j < (s.halfSwap i j).teamMembers.length := by simpa [halfSwap] using hj
  rw [member_eq hj']
  by_cases hij : i = j
  · subst hij
    simp [halfSwap]
  · simp [halfSwap, hij, member_eq hj]

theorem membersOn_swapTeamMembersByRequest {s : TeamBalancer} {i j : ℕ}
    (hi : i < s.teamMembers.length) (hj : j < s.teamMembers.length) (team : ℕ) :
    (s.swapTeamMembersByRequest i j).membersOn team = s.membersOn team := by
  have hj' : j < (s.halfSwap i j).teamMembers.length := by simpa [halfSwap] using hj
  have h1 : (s.halfSwap i j).membersOn team +
      (if (s.member i).currentTeam = team then 1 else 0) =
        s.membersOn team + if (s.member j).currentTeam = team then 1 else 0 :=
    countP_set_member hi _ team
  have h2 : (s.swapTeamMembersByRequest i j).membersOn team +
      (if ((s.halfSwap i j).member j).currentTeam = team then 1 else 0) =
        (s.halfSwap i j).membersOn team + if (s.member i).currentTeam = team then 1 else 0 :=
    countP_set_member hj' _ team
  rw [(member_halfSwap i hj).1] at h2
  omega

theorem rearranged_swapTeamMembersByRequest {s : TeamBalancer} {i j : ℕ}
    (hi : i < s.teamMembers.length) (hj : j < s.teamMembers.length) :
    Rearranged s (s.swapTeamMembersByRequest i j) := by
  have hj' : j < (s.halfSwap i j).teamMembers.length := by simpa [halfSwap] using hj
  have h1 : (s.halfSwap i j).keys = s.keys := map_key_set hi rfl rfl
  have h2 : (s.swapTeamMembersByRequest i j).keys = (s.halfSwap i j).keys :=
    map_key_set hj' (member_halfSwap i hj).2.1.symm (member_halfSwap i hj).2.2.symm
  exact ⟨⟨rfl, rfl, rfl, rfl⟩, h2.trans h1⟩

theorem WellCounted.swapTeamMembersByRequest {s : TeamBalancer} (h : WellCounted s) {i j : ℕ}
    (hi : i < s.teamMembers.length) (hj : j < s.teamMembers.length) :
    WellCounted (s.swapTeamMembersByRequest i j) := by
  refine h.update rfl rfl ?_ ?_ ?_
  · intro team hteam
    rw [membersOn_swapTeamMembersByRequest hi hj]
    exact ⟨h.counts team hteam, h.within team hteam⟩
  · apply valid_set
    · exact valid_set h.valid ⟨h.current_member hj, Or.inr rfl⟩
    · exact ⟨h.current_member hi, Or.inr rfl⟩
  · rw [(rearranged_swapTeamMembersByRequest hi hj).keys]
    exact h.distinct

/-! ### A request is recorded or cancelled -/

theorem membersOn_recordRequest {s : TeamBalancer} {i : ℕ} (hi : i < s.teamMembers.length)
    (desiredTeam team : ℕ) : (s.recordRequest i desiredTeam).membersOn team = s.membersOn team := by
  have hset : (s.recordRequest i desiredTeam).membersOn team +
      (if (s.member i).currentTeam = team then 1 else 0) =
        s.membersOn team + if (s.member i).currentTeam = team then 1 else 0 :=
    countP_set_member hi _ team
  omega

theorem rearranged_recordRequest {s : TeamBalancer} {i : ℕ} (hi : i < s.teamMembers.length)
    (desiredTeam : ℕ) : Rearranged s (s.recordRequest i desiredTeam) :=
  ⟨⟨rfl, rfl, rfl, rfl⟩, map_key_set hi rfl rfl⟩

theorem WellCounted.recordRequest {s : TeamBalancer} (h : WellCounted s) {i : ℕ}
    (hi : i < s.teamMembers.length) {desiredTeam : ℕ}
    (hteam : desiredTeam < s.teamLimits.length ∨ desiredTeam = unassignedTeamId) :
    WellCounted (s.recordRequest i desiredTeam) := by
  refine h.update rfl rfl ?_ ?_ ?_
  · intro team hlt
    rw [membersOn_recordRequest hi]
    exact ⟨h.counts team hlt, h.within team hlt⟩
  · exact valid_set h.valid ⟨h.current_member hi, hteam⟩
  · rw [(rearranged_recordRequest hi desiredTeam).keys]
    exact h.distinct

/-! ### A member leaves -/

theorem length_removeTeamMember {s : TeamBalancer} {i : ℕ} (hi : i < s.teamMembers.length) :
    (s.removeTeamMember i).teamMembers.length + 1 = s.teamMembers.length := by
  have hlen := (removeAtIndexFast_perm hi).length_eq
  rw [List.length_eraseIdx_of_lt hi] at hlen
  have heq : (s.removeTeamMember i).teamMembers.length =
      (removeAtIndexFast s.teamMembers i).length := rfl
  omega

theorem membersOn_removeTeamMember {s : TeamBalancer} {i : ℕ} (hi : i < s.teamMembers.length)
    (team : ℕ) :
    (s.removeTeamMember i).membersOn team +
      (if (s.member i).currentTeam = team then 1 else 0) = s.membersOn team := by
  have hperm := (List.getElem_cons_eraseIdx_perm hi).countP_eq fun m => m.currentTeam == team
  rw [List.countP_cons, ← (removeAtIndexFast_perm hi).countP_eq, ← member_eq hi] at hperm
  simp only [beq_iff_eq] at hperm
  exact hperm

theorem WellCounted.removeTeamMember {s : TeamBalancer} (h : WellCounted s) {i : ℕ}
    (hi : i < s.teamMembers.length) : WellCounted (s.removeTeamMember i) := by
  have hperm : (s.removeTeamMember i).teamMembers.Perm (s.teamMembers.eraseIdx i) :=
    removeAtIndexFast_perm hi
  have hsub := List.eraseIdx_sublist s.teamMembers i
  refine h.update rfl ?_ ?_ ?_ ?_
  · simp [TeamBalancer.removeTeamMember]
  · intro team hlt
    have hon := membersOn_removeTeamMember hi team
    have hpos := membersOn_pos hi
    have hbound := h.limits team
    have hwithin := h.within team hlt
    have hcounts := h.counts team hlt
    have heq : (s.removeTeamMember i).count team =
        if (s.member i).currentTeam = team then countDown (s.count team) else s.count team := by
      rw [count, TeamBalancer.removeTeamMember,
        getD_modify (by simpa [h.lengths] using h.current_member hi)]
      rfl
    rw [heq]
    by_cases hc : (s.member i).currentTeam = team
    · rw [hc] at hpos
      rw [if_pos hc] at hon ⊢
      rw [countDown_eq (by omega) (by omega)]
      omega
    · rw [if_neg hc] at hon ⊢
      omega
  · exact fun m hm => h.valid m (hsub.subset (hperm.mem_iff.mp hm))
  · have hkeys := hperm.map fun m => (m.memberGuid, m.memberId)
    exact hkeys.nodup_iff.mpr (h.distinct.sublist (hsub.map _))

/-! ### A member joins -/

theorem membersOn_addTeamMember {s : TeamBalancer} {tm : TeamMember}
    (htm : tm.currentTeam < s.teamLimits.length) (team : ℕ) :
    (s.addTeamMember tm).membersOn team =
      s.membersOn team + if tm.currentTeam = team then 1 else 0 := by
  rw [addTeamMember, if_neg (by omega), membersOn, membersOn]
  simp [List.countP_append, List.countP_cons]

theorem WellCounted.addTeamMember {s : TeamBalancer} (h : WellCounted s) {tm : TeamMember}
    (htm : tm.Valid s.teamLimits.length) (hroom : s.count tm.currentTeam < s.limit tm.currentTeam)
    (hnew : (tm.memberGuid, tm.memberId) ∉ s.keys) : WellCounted (s.addTeamMember tm) := by
  have hadd : s.addTeamMember tm =
      { s with
        teamMembers := s.teamMembers ++ [tm]
        teamMemberCounts := s.teamMemberCounts.modify tm.currentTeam countUp } := by
    have hcurrent := htm.current
    rw [TeamBalancer.addTeamMember, if_neg (by omega), h.lengths, if_neg (by omega)]
  have hkeys : (s.addTeamMember tm).keys = s.keys ++ [(tm.memberGuid, tm.memberId)] := by
    rw [hadd]
    exact List.map_append
  refine h.update ?_ ?_ ?_ ?_ ?_
  · rw [hadd]
  · simp [hadd]
  · intro team hlt
    have hon := membersOn_addTeamMember htm.current team
    have hbound := h.limits team
    have hwithin := h.within team hlt
    have hcounts := h.counts team hlt
    have heq : (s.addTeamMember tm).count team =
        if tm.currentTeam = team then countUp (s.count team) else s.count team := by
      rw [hadd, count, getD_modify (by simpa [h.lengths] using htm.current)]
      rfl
    rw [heq]
    by_cases hc : tm.currentTeam = team
    · rw [hc] at hroom
      rw [if_pos hc] at hon ⊢
      rw [countUp_eq (by omega)]
      omega
    · rw [if_neg hc] at hon ⊢
      omega
  · intro m hm
    rw [hadd] at hm
    rcases List.mem_append.mp hm with hm | hm
    · exact h.valid m hm
    · rw [List.mem_singleton.mp hm]
      exact htm
  · rw [hkeys, List.nodup_append]
    refine ⟨h.distinct, by simp, ?_⟩
    intro key hkey key' hkey' heq
    rw [List.mem_singleton.mp hkey'] at heq
    exact hnew (heq ▸ hkey)

end TeamBalancer
end SLikeNet
