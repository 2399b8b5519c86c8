import Mathlib.Algebra.Order.BigOperators.Group.Finset
import SLikeNet.TeamWorld

/-! Members that are kicked: `KickExcessMembers` ends, with what it calls, and no team has too many
members then. -/

namespace SLikeNet

namespace TeamManager

open FuelledLoop

namespace World

/-- A member is in the list of a team as often as the team is in its own. -/
structure Consistent (w : World) : Prop where
  on : ∀ team m, (w.onTeam team).count m = (w.member m).teams.count team
  inside : ∀ m, ∀ team ∈ (w.member m).teams, team < w.settings.length

/-- Neither a setting nor the number of members has changed. -/
structure SameSettings (w w' : World) : Prop where
  settings : w'.settings = w.settings
  balanceTeamsIsActive : w'.balanceTeamsIsActive = w.balanceTeamsIsActive
  membersCount : w'.membersCount = w.membersCount

variable {w w' w'' : World} {m team fuel : ℕ}

theorem SameSettings.refl (w : World) : SameSettings w w := ⟨rfl, rfl, rfl⟩

theorem SameSettings.trans (h : SameSettings w w') (h' : SameSettings w' w'') :
    SameSettings w w'' where
  settings := h'.settings.trans h.settings
  balanceTeamsIsActive := h'.balanceTeamsIsActive.trans h.balanceTeamsIsActive
  membersCount := h'.membersCount.trans h.membersCount

theorem SameSettings.setting (h : SameSettings w w') (team : ℕ) :
    w'.setting team = w.setting team := by
  rw [World.setting, World.setting, h.settings]

theorem SameSettings.getBalancedTeamLimit (h : SameSettings w w') :
    w'.getBalancedTeamLimit = w.getBalancedTeamLimit := by
  have hlimits : w'.limits = w.limits := by
    simp only [limits, h.settings]
  rw [World.getBalancedTeamLimit, World.getBalancedTeamLimit, hlimits, h.settings,
    h.balanceTeamsIsActive, h.membersCount]

theorem SameSettings.balancedTeamLimit (h : SameSettings w w') :
    w'.balancedTeamLimit = w.balancedTeamLimit := by
  rw [World.balancedTeamLimit, World.balancedTeamLimit, h.getBalancedTeamLimit,
    h.balanceTeamsIsActive]

theorem setting_eq_default (h : w.settings.length ≤ team) : w.setting team = default :=
  List.getD_eq_default _ _ h

/-! ### The changes of the lists -/

@[simp]
theorem member_changeMember (w : World) (m : ℕ) (f : Member → Member) :
    (w.changeMember m f).member = Function.update w.member m (f (w.member m)) := rfl

@[simp]
theorem member_addToTeamList (w : World) (m team : ℕ) :
    (w.addToTeamList m team).member =
      Function.update w.member m { w.member m with teams := (w.member m).teams ++ [team] } := rfl

@[simp]
theorem onTeam_addToTeamList (w : World) (m team : ℕ) :
    (w.addToTeamList m team).onTeam =
      Function.update w.onTeam team (w.onTeam team ++ [m]) := rfl

@[simp]
theorem member_removeFromAllTeamsInternal (w : World) (m : ℕ) :
    (w.removeFromAllTeamsInternal m).member =
      Function.update w.member m { w.member m with teams := [] } := rfl

theorem Consistent.changeMember (h : Consistent w) (m : ℕ) {f : Member → Member}
    (hf : ∀ x, (f x).teams = x.teams) : Consistent (w.changeMember m f) := by
  have hteams : ∀ m', ((w.changeMember m f).member m').teams = (w.member m').teams := by
    intro m'
    rw [member_changeMember]
    by_cases heq : m' = m
    · rw [heq, Function.update_self, hf]
    · rw [Function.update_of_ne heq]
  refine ⟨fun team m' => ?_, fun m' => ?_⟩
  · rw [hteams]
    exact h.on team m'
  · rw [hteams]
    exact h.inside m'

theorem Consistent.broadcast (h : Consistent w) (message : Message) :
    Consistent (w.broadcast message) := ⟨h.on, h.inside⟩

theorem count_addToTeamList (w : World) (m team other : ℕ) :
    (w.addToTeamList m team).count other = w.count other + if other = team then 1 else 0 := by
  rw [count, onTeam_addToTeamList]
  by_cases heq : other = team
  · rw [if_pos heq, heq, Function.update_self, List.length_append]
    rfl
  · rw [if_neg heq, Function.update_of_ne heq]
    rfl

theorem Consistent.addToTeamList (h : Consistent w) (m : ℕ) (hteam : team < w.settings.length) :
    Consistent (w.addToTeamList m team) := by
  constructor
  · intro team' m'
    have hon := h.on team' m'
    by_cases ht : team' = team
    · subst ht
      by_cases hm : m' = m
      · subst hm
        simp [hon]
      · simp [hm, hon, Ne.symm hm]
    · by_cases hm : m' = m
      · subst hm
        simp [ht, hon, Ne.symm ht]
      · simp [ht, hm, hon]
  · intro m' team' hmem
    rw [member_addToTeamList] at hmem
    by_cases hm : m' = m
    · subst hm
      rw [Function.update_self] at hmem
      obtain hold | hnew := List.mem_append.mp hmem
      · exact h.inside m' team' hold
      · rw [List.mem_singleton.mp hnew]
        exact hteam
    · rw [Function.update_of_ne hm] at hmem
      exact h.inside m' team' hmem

theorem Consistent.mem_iff (h : Consistent w) (m team : ℕ) :
    m ∈ w.onTeam team ↔ team ∈ (w.member m).teams := by
  rw [← List.count_pos_iff, h.on, List.count_pos_iff]

theorem count_removeFromSpecificTeamInternal (h : Consistent w) (m team other : ℕ) :
    (w.removeFromSpecificTeamInternal m team).count other =
      w.count other - if other = team ∧ team ∈ (w.member m).teams then 1 else 0 := by
  rw [removeFromSpecificTeamInternal]
  by_cases hteam : team ∈ (w.member m).teams
  · rw [if_pos hteam, count]
    by_cases heq : other = team
    · subst heq
      rw [if_pos ⟨rfl, hteam⟩]
      have hmem := (h.mem_iff m other).mpr hteam
      simp [List.length_erase_of_mem hmem, count]
    · rw [if_neg fun hc => heq hc.1]
      simp [heq, count]
  · rw [if_neg hteam, if_neg fun hc => hteam hc.2, Nat.sub_zero]

theorem Consistent.removeFromSpecificTeamInternal (h : Consistent w) (m team : ℕ) :
    Consistent (w.removeFromSpecificTeamInternal m team) := by
  rw [World.removeFromSpecificTeamInternal]
  by_cases hteam : team ∈ (w.member m).teams
  · rw [if_pos hteam]
    constructor
    · intro team' m'
      have hon := h.on team' m'
      by_cases ht : team' = team
      · subst ht
        by_cases hm : m' = m
        · subst hm
          simp [hon]
        · simp [hm, hon]
      · by_cases hm : m' = m
        · subst hm
          simp [ht, hon]
        · simp [ht, hm, hon]
    · intro m' team' hmem
      rw [member_changeMember] at hmem
      by_cases hm : m' = m
      · subst hm
        rw [Function.update_self] at hmem
        exact h.inside m' team' (List.mem_of_mem_erase hmem)
      · rw [Function.update_of_ne hm] at hmem
        exact h.inside m' team' hmem
  · rw [if_neg hteam]
    exact h

theorem foldl_erase_spec (m : ℕ) (teams : List ℕ) {onTeam : ℕ → List ℕ}
    (h : ∀ team, teams.count team ≤ (onTeam team).count m) (team : ℕ) :
    (teams.foldl (fun onTeam team => Function.update onTeam team ((onTeam team).erase m))
        onTeam team).length + teams.count team = (onTeam team).length ∧
      ∀ m', (teams.foldl (fun onTeam team => Function.update onTeam team ((onTeam team).erase m))
        onTeam team).count m' =
          (onTeam team).count m' - if m' = m then teams.count team else 0 := by
  induction teams generalizing onTeam with
  | nil => simp
  | cons left teams ih =>
    have hleft := h left
    rw [List.count_cons_self] at hleft
    have hmem : m ∈ onTeam left := List.count_pos_iff.mp (by omega)
    have hpos := List.length_pos_of_mem hmem
    have hrest : ∀ t, teams.count t ≤
        (Function.update onTeam left ((onTeam left).erase m) t).count m := by
      intro t
      have ht := h t
      by_cases heq : t = left
      · rw [heq, Function.update_self, List.count_erase_self]
        omega
      · rw [Function.update_of_ne heq]
        rwa [List.count_cons_of_ne (Ne.symm heq)] at ht
    obtain ⟨hlength, hcount⟩ := ih hrest
    rw [List.foldl_cons]
    by_cases heq : team = left
    · subst heq
      rw [Function.update_self] at hlength hcount
      rw [List.length_erase_of_mem hmem] at hlength
      rw [List.count_cons_self]
      refine ⟨by omega, fun m' => ?_⟩
      rw [hcount]
      by_cases hm : m' = m
      · rw [if_pos hm, if_pos hm, hm, List.count_erase_self]
        omega
      · rw [if_neg hm, if_neg hm, List.count_erase_of_ne hm]
    · rw [Function.update_of_ne heq] at hlength hcount
      rw [List.count_cons_of_ne (Ne.symm heq)]
      exact ⟨hlength, hcount⟩

theorem count_removeFromAllTeamsInternal (h : Consistent w) (m team : ℕ) :
    (w.removeFromAllTeamsInternal m).count team + (w.member m).teams.count team =
      w.count team :=
  (foldl_erase_spec m (w.member m).teams (fun t => (h.on t m).ge) team).1

theorem Consistent.removeFromAllTeamsInternal (h : Consistent w) (m : ℕ) :
    Consistent (w.removeFromAllTeamsInternal m) := by
  constructor
  · intro team m'
    have hcount := (foldl_erase_spec m (w.member m).teams (fun t => (h.on t m).ge) team).2 m'
    refine hcount.trans ?_
    by_cases hm : m' = m
    · subst hm
      simp [h.on]
    · simp [hm, h.on]
  · intro m' team hmem
    by_cases hm : m' = m
    · subst hm
      simp at hmem
    · rw [member_removeFromAllTeamsInternal, Function.update_of_ne hm] at hmem
      exact h.inside m' team hmem

/-! ### A member goes to a team -/

theorem teams_removeFromRequestedTeams (x : Member) (team : ℕ) :
    (x.removeFromRequestedTeams team).teams = x.teams := by
  rw [Member.removeFromRequestedTeams]
  split <;> rfl

theorem sameSettings_removeFromSpecificTeamInternal (w : World) (m team : ℕ) :
    SameSettings w (w.removeFromSpecificTeamInternal m team) := by
  rw [removeFromSpecificTeamInternal]
  split <;> exact ⟨rfl, rfl, rfl⟩

/-- What is left of the member's teams before it is added to the new one. -/
def afterLeaving (w : World) (m : ℕ) (isTeamSwitch : Bool) (teamToLeave : Option ℕ) : World :=
  if isTeamSwitch then
    match teamToLeave with
    | none => w.removeFromAllTeamsInternal m
    | some left => w.removeFromSpecificTeamInternal m left
  else w

theorem removeFromTeamsRequestedAndAddTeam_eq (w : World) (m team : ℕ) (isTeamSwitch : Bool)
    (teamToLeave : Option ℕ) :
    w.removeFromTeamsRequestedAndAddTeam m team isTeamSwitch teamToLeave =
      ((w.changeMember m fun x => x.removeFromRequestedTeams team).afterLeaving m isTeamSwitch
        teamToLeave).addToTeamList m team := rfl

theorem afterLeaving_spec (h : Consistent w) (m : ℕ) (isTeamSwitch : Bool)
    (teamToLeave : Option ℕ) :
    Consistent (w.afterLeaving m isTeamSwitch teamToLeave) ∧
      SameSettings w (w.afterLeaving m isTeamSwitch teamToLeave) ∧
        ∀ team, (w.afterLeaving m isTeamSwitch teamToLeave).count team ≤ w.count team := by
  cases isTeamSwitch with
  | false => exact ⟨h, SameSettings.refl w, fun _ => Nat.le_refl _⟩
  | true =>
    cases teamToLeave with
    | none =>
      refine ⟨h.removeFromAllTeamsInternal m, ⟨rfl, rfl, rfl⟩, fun team => ?_⟩
      have hcount := count_removeFromAllTeamsInternal h m team
      exact hcount ▸ Nat.le_add_right _ _
    | some left =>
      refine ⟨h.removeFromSpecificTeamInternal m left,
        sameSettings_removeFromSpecificTeamInternal w m left, fun team => ?_⟩
      exact (count_removeFromSpecificTeamInternal h m left team).trans_le (Nat.sub_le _ _)

theorem Consistent.removeFromRequestedTeams (h : Consistent w) (m team : ℕ) :
    Consistent (w.changeMember m fun x => x.removeFromRequestedTeams team) :=
  h.changeMember m fun x => teams_removeFromRequestedTeams x team

theorem removeFromTeamsRequestedAndAddTeam_spec (h : Consistent w)
    (hteam : team < w.settings.length) (m : ℕ) (isTeamSwitch : Bool) (teamToLeave : Option ℕ) :
    Consistent (w.removeFromTeamsRequestedAndAddTeam m team isTeamSwitch teamToLeave) ∧
      SameSettings w (w.removeFromTeamsRequestedAndAddTeam m team isTeamSwitch teamToLeave) ∧
        ∀ other, (w.removeFromTeamsRequestedAndAddTeam m team isTeamSwitch teamToLeave).count
          other ≤ w.count other + if other = team then 1 else 0 := by
  rw [removeFromTeamsRequestedAndAddTeam_eq]
  obtain ⟨hleft, hsame, hcount⟩ :=
    afterLeaving_spec (h.removeFromRequestedTeams m team) m isTeamSwitch teamToLeave
  refine ⟨hleft.addToTeamList m (hsame.settings ▸ hteam), ?_, fun other => ?_⟩
  · exact ⟨hsame.settings, hsame.balanceTeamsIsActive, hsame.membersCount⟩
  · rw [count_addToTeamList]
    exact Nat.add_le_add_right (hcount other) _

theorem count_removeFromAll (h : Consistent w) (m team other : ℕ) :
    (w.removeFromTeamsRequestedAndAddTeam m team true none).count other +
        (w.member m).teams.count other =
      w.count other + if other = team then 1 else 0 := by
  have hcount := count_removeFromAllTeamsInternal (h.removeFromRequestedTeams m team) m other
  rw [member_changeMember, Function.update_self, teams_removeFromRequestedTeams] at hcount
  rw [removeFromTeamsRequestedAndAddTeam_eq, count_addToTeamList]
  change _ + _ + _ = (w.changeMember m fun x => x.removeFromRequestedTeams team).count other + _
  rw [← hcount]
  exact Nat.add_right_comm _ _ _

theorem teams_removeFromAll (w : World) (m team : ℕ) :
    ((w.removeFromTeamsRequestedAndAddTeam m team true none).member m).teams = [team] := by
  rw [removeFromTeamsRequestedAndAddTeam_eq, member_addToTeamList, Function.update_self]
  simp [afterLeaving]

theorem member_removeFromAll {m' : ℕ} (w : World) (team : ℕ) (hne : m' ≠ m) :
    (w.removeFromTeamsRequestedAndAddTeam m team true none).member m' = w.member m' := by
  rw [removeFromTeamsRequestedAndAddTeam_eq, member_addToTeamList, Function.update_of_ne hne]
  simp [afterLeaving, hne]

/-! ### Teams with room -/

structure Available (w : World) (secondaryLimit : ℕ) (joinPermission : JoinPermission)
    (team : ℕ) : Prop where
  secondary : w.count team < secondaryLimit
  setting : w.count team < (w.setting team).teamMemberLimit
  permission : joinPermission ∈ (w.setting team).joinPermissions

/-- What the loop over the first `n` teams has found. -/
structure FewestBelow (w : World) (secondaryLimit : ℕ) (joinPermission : JoinPermission) (n : ℕ)
    (lowest : ℕ × Option ℕ) : Prop where
  found : ∀ team, lowest.2 = some team →
    team < n ∧ w.Available secondaryLimit joinPermission team ∧ w.count team = lowest.1
  least : ∀ team < n, w.Available secondaryLimit joinPermission team → lowest.1 ≤ w.count team

theorem fewestBelow_foldl (w : World) (secondaryLimit : ℕ) (joinPermission : JoinPermission)
    (n : ℕ) : FewestBelow w secondaryLimit joinPermission n
      ((List.range n).foldl (w.fewerMembers secondaryLimit joinPermission)
        (4294967295, none)) := by
  induction n with
  | zero =>
    refine ⟨fun _ hnone => ?_, fun _ hlt => absurd hlt (Nat.not_lt_zero _)⟩
    cases hnone
  | succ n ih =>
    rw [List.range_succ, List.foldl_append, List.foldl_cons, List.foldl_nil]
    generalize (List.range n).foldl _ _ = lowest at ih
    rw [fewerMembers]
    by_cases hless : w.count n < secondaryLimit ∧ w.count n < (w.setting n).teamMemberLimit ∧
        w.count n < lowest.1 ∧ joinPermission ∈ (w.setting n).joinPermissions
    · rw [if_pos hless]
      constructor
      · intro team hteam
        obtain rfl := Option.some.inj hteam
        exact ⟨Nat.lt_succ_self n, ⟨hless.1, hless.2.1, hless.2.2.2⟩, rfl⟩
      · intro team hteam havailable
        obtain hlt | rfl := Nat.lt_succ_iff_lt_or_eq.mp hteam
        · exact hless.2.2.1.le.trans (ih.least team hlt havailable)
        · exact Nat.le_refl _
    · rw [if_neg hless]
      constructor
      · intro team hteam
        obtain ⟨hlt, hfound⟩ := ih.found team hteam
        exact ⟨Nat.lt_succ_of_lt hlt, hfound⟩
      · intro team hteam havailable
        obtain hlt | rfl := Nat.lt_succ_iff_lt_or_eq.mp hteam
        · exact ih.least team hlt havailable
        · by_contra hnot
          exact hless ⟨havailable.secondary, havailable.setting, Nat.not_le.mp hnot,
            havailable.permission⟩

theorem getAvailableTeamIndexWithFewestMembers_some {secondaryLimit : ℕ}
    {joinPermission : JoinPermission}
    (h : w.getAvailableTeamIndexWithFewestMembers secondaryLimit joinPermission = some team) :
    team < w.settings.length ∧ w.Available secondaryLimit joinPermission team ∧
      ∀ other < w.settings.length, w.Available secondaryLimit joinPermission other →
        w.count team ≤ w.count other := by
  have hfewest := fewestBelow_foldl w secondaryLimit joinPermission w.settings.length
  obtain ⟨hlt, havailable, hcount⟩ := hfewest.found team h
  exact ⟨hlt, havailable, fun other hother ho => hcount ▸ hfewest.least other hother ho⟩

/-! ### No team gets too many members -/

/-- The members that a team may keep. -/
def cap (w : World) (team : ℕ) : ℕ :=
  if (w.setting team).balancingApplies then
    min (w.setting team).teamMemberLimit w.balancedTeamLimit
  else (w.setting team).teamMemberLimit

/-- The count of a team has only grown up to its cap. -/
structure Eases (w w' : World) : Prop extends SameSettings w w' where
  consistent : Consistent w'
  count_le : ∀ team, w'.count team ≤ w.count team ∨ w'.count team ≤ w.cap team

theorem SameSettings.cap (h : SameSettings w w') (team : ℕ) : w'.cap team = w.cap team := by
  rw [World.cap, World.cap, h.setting, h.balancedTeamLimit]

theorem Eases.refl (h : Consistent w) : Eases w w :=
  ⟨SameSettings.refl w, h, fun _ => .inl (Nat.le_refl _)⟩

theorem Eases.trans (h : Eases w w') (h' : Eases w' w'') : Eases w w'' := by
  refine ⟨h.toSameSettings.trans h'.toSameSettings, h'.consistent, fun team => ?_⟩
  have hcount := h.count_le team
  have hcount' := h'.count_le team
  rw [h.toSameSettings.cap] at hcount'
  omega

theorem Eases.broadcast (h : Eases w w') (message : Message) : Eases w (w'.broadcast message) :=
  ⟨⟨h.settings, h.balanceTeamsIsActive, h.membersCount⟩, h.consistent.broadcast message,
    h.count_le⟩

theorem Eases.of_added (hsame : SameSettings w w') (hconsistent : Consistent w')
    (hlimit : w.count team < (w.setting team).teamMemberLimit)
    (hbalanced : w.count team < w.balancedTeamLimit)
    (hcount : ∀ other, w'.count other ≤ w.count other + if other = team then 1 else 0) :
    Eases w w' := by
  refine ⟨hsame, hconsistent, fun other => ?_⟩
  have hle := hcount other
  by_cases heq : other = team
  · right
    rw [if_pos heq] at hle
    rw [heq] at hle ⊢
    rw [cap]
    split
    · rw [Nat.le_min]
      omega
    · omega
  · left
    rwa [if_neg heq] at hle

theorem Eases.of_le (hsame : SameSettings w w') (hconsistent : Consistent w')
    (hcount : ∀ team, w'.count team ≤ w.count team) : Eases w w' :=
  ⟨hsame, hconsistent, fun team => .inl (hcount team)⟩

/-! ### The slots are filled -/

theorem mem_of_getMemberWithRequestedSingleTeamSwitch {other left : ℕ}
    (h : w.getMemberWithRequestedSingleTeamSwitch team left = some other) :
    other ∈ w.onTeam team ∧ (w.member other).teams.length = 1 := by
  have hmem := List.mem_of_find?_eq_some h
  have hrequests := List.find?_some h
  rw [requestsSingleTeamSwitch, Bool.and_eq_true, beq_iff_eq] at hrequests
  exact ⟨hmem, hrequests.1⟩

theorem teams_partner (h : Consistent w) {other left : ℕ}
    (hother : w.getMemberWithRequestedSingleTeamSwitch team left = some other) :
    (w.member other).teams = [team] := by
  obtain ⟨hmem, hone⟩ := mem_of_getMemberWithRequestedSingleTeamSwitch hother
  rw [h.mem_iff] at hmem
  obtain ⟨only, honly⟩ := List.length_eq_one_iff.mp hone
  rw [honly, List.mem_singleton] at hmem
  rw [honly, hmem]

theorem eases_swapMembers (h : Consistent w) {other left : ℕ}
    (hleft : left ∈ (w.member m).teams)
    (hother : w.getMemberWithRequestedSingleTeamSwitch team left = some other) :
    Eases w (w.swapMembers m team other left) := by
  have hbefore := teams_partner h hother
  have hteam := h.inside other team (by simp [hbefore])
  have hteams : ((w.removeFromTeamsRequestedAndAddTeam m team true none).member other).teams =
      [team] := by
    by_cases heq : other = m
    · rw [heq]
      exact teams_removeFromAll w m team
    · rw [member_removeFromAll w team heq]
      exact hbefore
  obtain ⟨hfirst, hsame, -⟩ := removeFromTeamsRequestedAndAddTeam_spec h hteam m true none
  have hinside : left <
      (w.removeFromTeamsRequestedAndAddTeam m team true none).settings.length :=
    hsame.settings ▸ h.inside m left hleft
  obtain ⟨hsecond, hsame', -⟩ := removeFromTeamsRequestedAndAddTeam_spec hfirst hinside other true
    none
  refine Eases.broadcast (Eases.of_le (hsame.trans hsame') hsecond fun t => ?_) _
  have hcount := count_removeFromAll h m team t
  have hcount' := count_removeFromAll hfirst other left t
  rw [hteams, List.count_singleton] at hcount'
  by_cases hl : t = left
  · have hpos : 0 < (w.member m).teams.count t := List.count_pos_iff.mpr (hl ▸ hleft)
    rw [if_pos hl] at hcount'
    by_cases ht : t = team
    · rw [ht] at hcount hcount' ⊢ hpos
      simp at hcount hcount'
      omega
    · simp [ht, Ne.symm ht] at hcount hcount'
      omega
  · rw [if_neg hl] at hcount'
    by_cases ht : t = team
    · rw [ht] at hcount hcount' ⊢
      simp at hcount hcount'
      omega
    · simp [ht, Ne.symm ht] at hcount hcount'
      omega

theorem eases_joinSpecificTeam (h : Consistent w) (m : ℕ) (hteam : team < w.settings.length)
    (hlimit : w.count team < (w.setting team).teamMemberLimit)
    (hbalanced : w.count team < w.balancedTeamLimit) (isTeamSwitch : Bool)
    (teamToLeave : Option ℕ) {teamsWeAreLeaving : List ℕ}
    (hleaving : ∀ left ∈ teamsWeAreLeaving, left ∈ (w.member m).teams) :
    Eases w (w.joinSpecificTeam m team isTeamSwitch teamToLeave teamsWeAreLeaving).1 := by
  have hrefl := Eases.refl h
  rw [joinSpecificTeam]
  split
  · split
    · split
      · obtain ⟨hconsistent, hsame, hcount⟩ :=
          removeFromTeamsRequestedAndAddTeam_spec h hteam m isTeamSwitch teamToLeave
        exact Eases.of_added hsame hconsistent hlimit hbalanced hcount
      · exact hrefl
    · split
      · next hone =>
        obtain ⟨left, rfl⟩ := List.length_eq_one_iff.mp hone
        split
        · next other hother =>
          exact eases_swapMembers h (hleaving left (List.mem_singleton_self left)) hother
        · exact hrefl
      · exact hrefl
  · exact hrefl

theorem mem_leaving (w : World) (m : ℕ) (r : RequestedTeam) :
    ∀ left ∈ (w.leaving m r).2.2, left ∈ (w.member m).teams := by
  intro left hmem
  rw [leaving] at hmem
  split at hmem
  · split at hmem
    · split at hmem
      · next hon => exact List.mem_singleton.mp hmem ▸ hon
      · cases hmem
    · exact hmem
  · cases hmem

theorem eases_serveRequest (h : Consistent w) (m : ℕ) (r : RequestedTeam)
    (hteam : r.requested < w.settings.length)
    (hlimit : w.count r.requested < (w.setting r.requested).teamMemberLimit)
    (hbalanced : w.count r.requested < w.balancedTeamLimit) : Eases w (w.serveRequest m r) := by
  have hjoin := eases_joinSpecificTeam h m hteam hlimit hbalanced (w.leaving m r).1
    (w.leaving m r).2.1 (mem_leaving w m r)
  rw [serveRequest]
  dsimp only
  split
  · next hresult =>
    rw [hresult] at hjoin
    exact hjoin.broadcast _
  · next hresult =>
    rw [hresult] at hjoin
    exact hjoin

theorem Consistent.updateTeamsRequestedToNone (h : Consistent w) (m : ℕ) :
    Consistent (w.changeMember m Member.updateTeamsRequestedToNone) :=
  h.changeMember m fun _ => rfl

theorem eases_fillSlot (h : Consistent w) (jrh : JoinRequestHelper) :
    Eases w (fillSlot w.balancedTeamLimit w jrh) := by
  rw [fillSlot]
  dsimp only
  split
  · split
    · split
      · next team hfound =>
        obtain ⟨hlt, havailable, -⟩ := getAvailableTeamIndexWithFewestMembers_some hfound
        apply Eases.broadcast
        exact Eases.of_added ⟨rfl, rfl, rfl⟩
          ((h.updateTeamsRequestedToNone _).addToTeamList _ hlt) havailable.setting
          havailable.secondary fun other => (count_addToTeamList _ _ _ other).le
      · exact Eases.refl h
    · exact Eases.refl h
  · split
    · next hroom =>
      refine eases_serveRequest h _ _ ?_ hroom.2.1 hroom.1
      by_contra hge
      rw [setting_eq_default (Nat.not_lt.mp hge)] at hroom
      exact absurd hroom.2.1 (Nat.not_lt_zero _)
    · exact Eases.refl h

theorem eases_fillRequestedSlots (h : Consistent w) : Eases w w.fillRequestedSlots := by
  rw [fillRequestedSlots]
  have hfold : ∀ (joinRequests : List JoinRequestHelper) (w' : World), Eases w w' →
      Eases w (joinRequests.foldl (fillSlot w.balancedTeamLimit) w') := by
    intro joinRequests
    induction joinRequests with
    | nil => exact fun _ h => h
    | cons jrh joinRequests ih =>
      intro w' hw'
      rw [List.foldl_cons]
      apply ih
      rw [← hw'.toSameSettings.balancedTeamLimit]
      exact hw'.trans (eases_fillSlot hw'.consistent jrh)
  exact hfold _ w (Eases.refl h)

/-! ### Members are kicked -/

/-- The members that are too many, on all teams. -/
def excess (w : World) : ℕ := ∑ team ∈ Finset.range w.settings.length, (w.count team - w.cap team)

theorem isOverfull_iff :
    isOverfull w.balancedTeamLimit team w = true ↔ w.cap team < w.count team := by
  rw [isOverfull, cap, Bool.or_eq_true, Bool.and_eq_true, decide_eq_true_iff, decide_eq_true_iff]
  split
  · next happlies => simp [happlies]
  · next hnot => simp [hnot]

theorem Eases.sub_cap_le (h : Eases w w') (team : ℕ) :
    w'.count team - w'.cap team ≤ w.count team - w.cap team := by
  have hcount := h.count_le team
  rw [h.toSameSettings.cap]
  omega

theorem Eases.excess_le (h : Eases w w') : w'.excess ≤ w.excess := by
  rw [excess, excess, h.settings]
  exact Finset.sum_le_sum fun team _ => h.sub_cap_le team

theorem Eases.excess_lt (h : Eases w w') (hteam : team < w.settings.length)
    (hover : w.cap team < w.count team) (hless : w'.count team < w.count team) :
    w'.excess < w.excess := by
  rw [excess, excess, h.settings]
  refine Finset.sum_lt_sum (fun t _ => h.sub_cap_le t) ⟨team, Finset.mem_range.mpr hteam, ?_⟩
  rw [h.toSameSettings.cap]
  omega

theorem eases_leaveTeamInternal (h : Consistent w) (hteam : team ∈ (w.member m).teams) :
    Eases w (w.leaveTeamInternal m team) ∧
      (w.leaveTeamInternal m team).count team < w.count team := by
  have hsame := sameSettings_removeFromSpecificTeamInternal w m team
  have hcount := count_removeFromSpecificTeamInternal h m team
  have hleft : Consistent (w.leaveTeamInternal m team) := by
    refine ((h.removeFromSpecificTeamInternal m team).changeMember m fun x => ?_).broadcast _
    split <;> rfl
  constructor
  · refine Eases.of_le ⟨hsame.settings, hsame.balanceTeamsIsActive, hsame.membersCount⟩ hleft
      fun other => ?_
    exact (hcount other).trans_le (Nat.sub_le _ _)
  · have hpos : 0 < w.count team := List.length_pos_of_mem ((h.mem_iff m team).mpr hteam)
    have heq := hcount team
    rw [if_pos ⟨rfl, hteam⟩] at heq
    change (w.removeFromSpecificTeamInternal m team).count team < _
    omega

theorem eases_moved (h : Consistent w) (hteam : team ∈ (w.member m).teams) {teamToJoin : ℕ}
    (hjoin : teamToJoin < w.settings.length) (hne : team ≠ teamToJoin)
    (havailable : w.Available w.balancedTeamLimit .rebalancing teamToJoin) :
    Eases w (w.removeFromTeamsRequestedAndAddTeam m teamToJoin true (some team)) ∧
      (w.removeFromTeamsRequestedAndAddTeam m teamToJoin true (some team)).count team <
        w.count team := by
  obtain ⟨hconsistent, hsame, hcount⟩ :=
    removeFromTeamsRequestedAndAddTeam_spec h hjoin m true (some team)
  refine ⟨Eases.of_added hsame hconsistent havailable.setting havailable.secondary hcount, ?_⟩
  have hpos : 0 < w.count team := List.length_pos_of_mem ((h.mem_iff m team).mpr hteam)
  have hleft := count_removeFromSpecificTeamInternal
    (h.removeFromRequestedTeams m teamToJoin) m team team
  rw [member_changeMember, Function.update_self, teams_removeFromRequestedTeams,
    if_pos ⟨rfl, hteam⟩] at hleft
  rw [removeFromTeamsRequestedAndAddTeam_eq, count_addToTeamList, if_neg hne]
  exact hleft.trans_lt (Nat.sub_one_lt_of_lt hpos)

/-- One turn of the loop over a team takes a member from it, and what that leads to does not bring
one back. -/
theorem kickMember_yields {kick : World → Option World} (h : Consistent w)
    (hteam : team < w.settings.length) (hover : w.cap team < w.count team)
    (hkick : ∀ w', Consistent w' → w'.excess < w.excess → Yields True (Eases w') (kick w')) :
    Yields True (fun w' => Eases w w' ∧ w'.excess < w.excess)
      (kickMember kick w.balancedTeamLimit team w) := by
  have hpos : 0 < (w.onTeam team).length := (Nat.zero_le _).trans_lt hover
  obtain ⟨m, hlast⟩ : ∃ m, (w.onTeam team).getLast? = some m :=
    ⟨_, List.getLast?_eq_some_getLast (List.ne_nil_of_length_pos hpos)⟩
  have hmem : team ∈ (w.member m).teams := (h.mem_iff m team).mp (List.mem_of_getLast? hlast)
  rw [kickMember, hlast, Option.bind_some]
  cases hfound : w.getAvailableTeamIndexWithFewestMembers w.balancedTeamLimit .rebalancing with
  | none =>
    dsimp only
    rw [leaveTeam, if_pos hmem]
    obtain ⟨hleft, hless⟩ := eases_leaveTeamInternal h hmem
    have hlt := hleft.excess_lt hteam hover hless
    have hfill := eases_fillRequestedSlots hleft.consistent
    have hle := hfill.excess_le
    refine (hkick _ hfill.consistent (hle.trans_lt hlt)).mono fun w' hw' => ?_
    exact ⟨(hleft.trans hfill).trans hw', hw'.excess_le.trans_lt (hle.trans_lt hlt)⟩
  | some teamToJoin =>
    obtain ⟨hjoin, havailable, -⟩ := getAvailableTeamIndexWithFewestMembers_some hfound
    have hne : team ≠ teamToJoin := by
      rintro rfl
      have hsetting := havailable.setting
      have hsecondary := havailable.secondary
      rw [cap] at hover
      split at hover <;> omega
    obtain ⟨hmoved, hless⟩ := eases_moved h hmem hjoin hne havailable
    have hlt := hmoved.excess_lt hteam hover hless
    exact ⟨hmoved.broadcast _, hlt⟩

theorem Eases.count_le_cap (h : Eases w w') (hle : w.count team ≤ w.cap team) :
    w'.count team ≤ w'.cap team := by
  have hcount := h.count_le team
  rw [h.toSameSettings.cap]
  omega

theorem kickExcessMembers_yields (fuel : ℕ) (h : Consistent w) (hfuel : w.excess < fuel) :
    Yields True (fun w' => Eases w w' ∧ ∀ team < w.settings.length, w'.count team ≤ w'.cap team)
      (kickExcessMembers fuel w) := by
  induction fuel generalizing w with
  | zero => omega
  | succ fuel ih =>
    rw [kickExcessMembers]
    apply foldlM_range_yields (fun i w' => Eases w w' ∧ ∀ team < i, w'.count team ≤ w'.cap team)
    · rintro i s hi ⟨hs, hdone⟩
      have hexcess := hs.excess_le
      refine (whileLoop_yields
        (fun s' => Eases w s' ∧ ∀ team < i, s'.count team ≤ s'.cap team) excess ?_ (fuel + 1) s
        ⟨hs, hdone⟩ fun _ => hexcess.trans_lt hfuel).mono ?_
      · rintro s' ⟨hs', hdone'⟩ hover
        rw [← hs'.toSameSettings.balancedTeamLimit] at hover ⊢
        have hexcess' := hs'.excess_le
        refine (kickMember_yields hs'.consistent (hs'.settings ▸ hi) (isOverfull_iff.mp hover)
          fun w' hw' hlt => (ih hw' (by omega)).mono fun _ hw'' => hw''.1).mono ?_
        exact fun s'' hs'' => ⟨⟨hs'.trans hs''.1, fun team hteam =>
          hs''.1.count_le_cap (hdone' team hteam)⟩, hs''.2⟩
      · rintro s' ⟨⟨hs', hdone'⟩, hnot⟩
        refine ⟨hs', fun team hteam => ?_⟩
        obtain hlt | rfl := Nat.lt_succ_iff_lt_or_eq.mp hteam
        · exact hdone' team hlt
        · rw [← hs'.toSameSettings.balancedTeamLimit] at hnot
          refine Nat.not_lt.mp fun hover => ?_
          rw [isOverfull_iff.mpr hover] at hnot
          cases hnot
    · exact ⟨Eases.refl h, fun _ hlt => absurd hlt (Nat.not_lt_zero _)⟩

/-- Every call ends, and leaves no team with more members than its limit or, where balancing applies
to it, than the balanced one. -/
theorem kickExcessMembers_ends (h : Consistent w) :
    ∃ fuel w' limit, kickExcessMembers fuel w = some w' ∧ w'.getBalancedTeamLimit = some limit ∧
      ∀ team < w'.settings.length, w'.count team ≤ (w'.setting team).teamMemberLimit ∧
        (w'.balanceTeamsIsActive = true → (w'.setting team).balancingApplies = true →
          w'.count team ≤ limit) := by
  obtain ⟨w', hkick, heases, hcap⟩ :=
    (kickExcessMembers_yields (w.excess + 1) h (Nat.lt_succ_self _)).exists trivial
  have hteams : w'.limits.limits.length < w'.settings.length + 1 := by
    rw [limits, List.length_map]
    exact Nat.lt_succ_self _
  obtain ⟨limit, hlimit⟩ := exists_getBalancedTeamLimit w'.balanceTeamsIsActive w'.limits
    w'.membersCount hteams
  refine ⟨_, w', limit, hkick, hlimit, fun team hteam => ?_⟩
  have hle := hcap team (heases.settings ▸ hteam)
  rw [cap] at hle
  constructor
  · split at hle
    · exact hle.trans (Nat.min_le_left _ _)
    · exact hle
  · intro hactive happlies
    have hbalanced : w'.balancedTeamLimit = limit := by
      rw [balancedTeamLimit, if_pos hactive, getBalancedTeamLimit, hlimit]
      rfl
    rw [if_pos happlies, hbalanced] at hle
    exact hle.trans (Nat.min_le_right _ _)

/-- A team for one member with two members. -/
def crowdedTeam : World where
  settings := [⟨1, [.anyAvailableTeam, .specificTeam, .rebalancing], true⟩]
  size_le := by decide
  balanceTeamsIsActive := false
  membersCount := 2
  onTeam
    | 0 => [0, 1]
    | _ => []
  member
    | 0 => ⟨[0], [], [], .noTeam, 0, 0⟩
    | 1 => ⟨[0], [], [], .noTeam, 0, 0⟩
    | _ => ⟨[], [], [], .noTeam, 0, 0⟩
  sent := []

theorem consistent_crowdedTeam : Consistent crowdedTeam := by
  constructor
  · rintro (- | team) (- | - | m) <;> simp [crowdedTeam]
  · rintro (- | - | m) <;> simp [crowdedTeam]

theorem kickExcessMembers_ends_crowded :
    ∃ fuel w' limit, kickExcessMembers fuel crowdedTeam = some w' ∧
      w'.getBalancedTeamLimit = some limit ∧
      ∀ team < w'.settings.length, w'.count team ≤ (w'.setting team).teamMemberLimit ∧
        (w'.balanceTeamsIsActive = true → (w'.setting team).balancingApplies = true →
          w'.count team ≤ limit) :=
  kickExcessMembers_ends consistent_crowdedTeam

end World

end TeamManager

end SLikeNet
