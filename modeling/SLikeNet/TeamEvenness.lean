import SLikeNet.EvenTeams

/-! When the operations of a host with `forceTeamsToBeEven` keep its teams even. -/

namespace SLikeNet

open FuelledLoop EvenCounts

namespace TeamBalancer

variable {randomMT : ℕ → ℕ} {enough : Prop} {fuel : ℕ}

/-- The host evens its teams. -/
def Forced (s : TeamBalancer) : Prop := s.forceTeamsToBeEven = true ∧ s.lockTeams = false

/-- The largest and the smallest team differ by one member at most. -/
def TeamsEven (s : TeamBalancer) : Prop :=
  ∀ team < s.teamLimits.length, ∀ team' < s.teamLimits.length, s.count team ≤ s.count team' + 1

/-- What the host promises. -/
def StaysEven (s : TeamBalancer) : Prop := Forced s → TeamsEven s

/-- The team on which the host puts a member that it does not put where it wants to go is not
larger than the average. -/
def DefaultFits (s : TeamBalancer) : Prop :=
  s.defaultAssigmentAlgorithm = .smallestTeam ∨ s.count 0 ≤ s.minTeamMembers

/-- The members that a lost connection takes with it. -/
def membersOf (s : TeamBalancer) (guid : ℕ) : ℕ := s.keys.countP fun key => key.1 == guid

/-- The condition on an operation of a host that evens its teams. -/
def KeepsEven (s : TeamBalancer) : Operation → Prop
  | .setForceEvenTeams force => force = true → s.lockTeams = false → s.CanBeEvened
  | .setLockTeams lock =>
    lock = false → s.lockTeams = true → s.forceTeamsToBeEven = true → s.CanBeEvened
  | .deleteMember memberId => s.Forced →
    ∀ i, (s.teamMembers.findIdx? fun m => m.memberId == memberId) = some i →
      s.LargestTeam (s.member i).currentTeam
  | .cancelTeamRequest _ _ => True
  | .requestAnyTeam guid memberId =>
    s.Forced → s.getMemberIndex memberId guid = none → s.DefaultFits
  | .requestSpecificTeam guid memberId desiredTeam => s.Forced →
    (s.getMemberIndex memberId guid = none → s.minTeamMembers < s.count desiredTeam →
      s.DefaultFits) ∧
    ∀ i, s.getMemberIndex memberId guid = some i →
      (desiredTeam = unassignedTeamId → s.LargestTeam (s.member i).currentTeam) ∧
      (s.teamMembers.length % s.teamLimits.length = 1 →
        (s.member i).currentTeam ≠ desiredTeam → s.count desiredTeam ≤ s.minTeamMembers →
          s.minTeamMembers < s.count (s.member i).currentTeam)
  | .closedConnection guid => s.Forced →
    s.teamLimits.length ≤ 2 ∨
      ∀ dropped < s.membersOf guid,
        (s.teamMembers.length - dropped) % s.teamLimits.length = 1 → dropped = 0 ∧
          ∀ i, (s.teamMembers.findIdx? fun m => m.memberGuid == guid) = some i →
            s.minTeamMembers < s.count (s.member i).currentTeam

theorem even_membersOn {s : TeamBalancer} (h : WellCounted s) (heven : TeamsEven s) :
    Even s.teamLimits.length s.membersOn := by
  intro team hteam team' hteam'
  rw [← h.counts team hteam, ← h.counts team' hteam']
  exact heven team hteam team' hteam'

theorem teamsEven_of_even {s s' : TeamBalancer} (h : WellCounted s')
    (hlimits : s'.teamLimits = s.teamLimits) (heven : Even s.teamLimits.length s'.membersOn) :
    TeamsEven s' := by
  intro team hteam team' hteam'
  rw [h.counts team hteam, h.counts team' hteam']
  rw [hlimits] at hteam hteam'
  exact heven team hteam team' hteam'

theorem Becomes.teamsEven {s s' : TeamBalancer} {counts : ℕ → ℕ} (h : Becomes s counts s')
    (heven : Even s.teamLimits.length counts) : TeamsEven s' :=
  teamsEven_of_even h.counted h.teamLimits (h.membersOn ▸ heven)

/-! ### A member joins, leaves or switches -/

theorem even_less {s : TeamBalancer} (h : WellCounted s) (heven : TeamsEven s) {i : ℕ}
    (hi : i < s.teamMembers.length) (hlargest : s.LargestTeam (s.member i).currentTeam) :
    Even s.teamLimits.length (less s.membersOn (s.member i).currentTeam) := by
  have hteam := h.current_member hi
  rw [LargestTeam, h.counts _ hteam] at hlargest
  exact (even_membersOn h heven).less (sum_membersOn h) hteam hlargest

theorem even_more {s : TeamBalancer} (h : WellCounted s) (heven : TeamsEven s) {team : ℕ}
    (hteam : team < s.teamLimits.length) (hle : s.count team ≤ s.minTeamMembers) :
    Even s.teamLimits.length (more s.membersOn team) := by
  rw [h.counts _ hteam] at hle
  exact (even_membersOn h heven).more (sum_membersOn h) hteam hle

/-- A default team is not larger than the average, where `DefaultFits` and no limit is reached. -/
theorem count_getNextDefaultTeam_le {s : TeamBalancer} (h : WellCounted s) (hroomy : Roomy s)
    (hfits : DefaultFits s) (hroom : s.HasRoom s.getNextDefaultTeam) :
    s.count s.getNextDefaultTeam ≤ s.minTeamMembers := by
  have hpos : 0 < s.teamLimits.length := List.length_pos_iff.mpr h.teams
  cases halgorithm : s.defaultAssigmentAlgorithm with
  | smallestTeam =>
    have hsmallest := smallestBelow_foldl h (le_refl s.teamLimits.length)
    have hdefault : s.getNextDefaultTeam = ((List.range s.teamLimits.length).foldl s.smallerTeam
        (maxUnsignedLong, unassignedTeamId)).2 := by
      rw [getNextDefaultTeam, halgorithm, ← h.lengths]
      rfl
    have hids := h.teamIds
    have hlt := hroom.1
    rw [← hdefault.symm] at hlt
    have hcount := hsmallest.count (by rw [← hdefault]; omega)
    rw [← hdefault] at hcount
    rw [h.counts _ hroom.1]
    apply le_div_of_least (sum_membersOn h) hroom.1
    intro team hteam
    have hleast := hsmallest.least team hteam (hroomy team hteam)
    rw [← h.counts _ hroom.1, ← h.counts _ hteam]
    omega
  | fillInOrder =>
    have hdefault : s.getNextDefaultTeam = 0 := by
      have hroomy0 := hroomy 0 hpos
      rw [getNextDefaultTeam, halgorithm]
      dsimp only
      rw [getFirstNonFullTeam, h.lengths]
      obtain ⟨k, hk⟩ : ∃ k, s.teamLimits.length = k + 1 := ⟨s.teamLimits.length - 1, by omega⟩
      rw [hk, List.range_succ_eq_map, List.find?_cons_of_pos (by simpa using hroomy0)]
      rfl
    rw [hdefault]
    rcases hfits with hsmallest | hle
    · rw [halgorithm] at hsmallest
      cases hsmallest
    · exact hle

theorem length_lt {s : TeamBalancer} (h : WellCounted s) :
    s.teamMembers.length ≤ maxUnsignedLong := by
  have hpos : 0 < s.teamLimits.length := List.length_pos_iff.mpr h.teams
  have hle : ∀ team < s.teamLimits.length, s.membersOn team ≤ 65536 := by
    intro team hteam
    have hlimit := h.limits team
    have hwithin := h.within team hteam
    rw [h.counts team hteam] at hwithin
    omega
  have hsum := sum_le_of_le (sum_membersOn h) hpos (e := 0) hle (hle 0 hpos)
  have hids := Nat.mul_le_mul_right 65536 h.teamIds
  rw [unassignedTeamId] at hids
  rw [maxUnsignedLong]
  omega

theorem counts_of_allowed {s : TeamBalancer} (hforce : s.forceTeamsToBeEven = true) {t1 t2 : ℕ}
    (hallowed : s.teamsWouldBeEvenOnSwitch t1 t2 = true) :
    s.count t1 ≤ (s.teamMembers.length - 1) / s.teamLimits.length ∧
      (s.teamMembers.length - 1 + maxUnsignedLong) % (maxUnsignedLong + 1) /
        s.teamLimits.length < s.count t2 := by
  rw [teamsWouldBeEvenOnSwitch, Bool.and_eq_true, Bool.not_eq_true', Bool.not_eq_true'] at hallowed
  obtain ⟨hover, hunder⟩ := hallowed
  have hroom := not_overpopulated hover
  rw [teamWouldBeOverpopulatedOnAddition, if_neg (by omega), if_pos hforce] at hover
  rw [teamWouldBeUnderpopulatedOnLeave, if_pos hforce] at hunder
  rw [decide_eq_false_iff_not] at hover hunder
  omega

/-- A switch that the host allows keeps the teams even, if it is not one between two teams of the
average size. -/
theorem even_switch {s : TeamBalancer} (h : WellCounted s) (heven : TeamsEven s) {i : ℕ}
    (hi : i < s.teamMembers.length) (hforce : s.forceTeamsToBeEven = true) {desiredTeam : ℕ}
    (hteam : desiredTeam < s.teamLimits.length)
    (hallowed : s.teamsWouldBeEvenOnSwitch desiredTeam (s.member i).currentTeam = true)
    (hfits : s.teamMembers.length % s.teamLimits.length = 1 →
      s.count desiredTeam ≤ s.minTeamMembers → s.minTeamMembers < s.count (s.member i).currentTeam) :
    Even s.teamLimits.length (moved s.membersOn (s.member i).currentTeam desiredTeam) := by
  have hpos : 0 < s.teamLimits.length := by omega
  have hold := h.current_member hi
  have hmembers := even_membersOn h heven
  have hsum := sum_membersOn h
  obtain ⟨htarget, hsource⟩ := counts_of_allowed hforce hallowed
  have hless : s.count desiredTeam ≤ s.minTeamMembers :=
    htarget.trans (Nat.div_le_div_right (Nat.sub_le _ _))
  have hmore : s.minTeamMembers < s.count (s.member i).currentTeam := by
    by_cases hone : s.teamMembers.length % s.teamLimits.length = 1
    · exact hfits hone hless
    · by_cases hzero : s.teamMembers.length % s.teamLimits.length = 0
      · have heq := hmembers.eq_div hsum hzero hteam
        have hpred := mod_pred_of_mod_zero hpos (by omega) hzero
        rw [← h.counts _ hteam] at heq
        omega
      · have hpred := div_mod_pred hpos (Nat.pos_of_ne_zero hzero)
        have hpred' := div_mod_pred (n := s.teamMembers.length - 1) hpos (by omega)
        have hlength := length_lt h
        have hmod := Nat.mod_le s.teamMembers.length s.teamLimits.length
        have hwrap : (s.teamMembers.length - 1 + maxUnsignedLong) % (maxUnsignedLong + 1) =
            s.teamMembers.length - 1 - 1 := by
          rw [maxUnsignedLong] at hlength ⊢
          omega
        rw [hwrap, hpred'.1, hpred.1] at hsource
        exact hsource
  rw [h.counts _ hold] at hmore
  rw [h.counts _ hteam] at hless
  exact hmembers.moved hsum hold hteam hmore hless

/-! ### A connection is lost -/

theorem membersOf_eq (s : TeamBalancer) (guid : ℕ) :
    s.membersOf guid = s.teamMembers.countP fun m => m.memberGuid == guid := by
  rw [membersOf, TeamBalancer.keys, List.countP_map]
  rfl

theorem membersOf_removeTeamMember {s : TeamBalancer} {i guid : ℕ} (hi : i < s.teamMembers.length)
    (hguid : (s.member i).memberGuid = guid) :
    (s.removeTeamMember i).membersOf guid + 1 = s.membersOf guid := by
  have hperm := (List.getElem_cons_eraseIdx_perm hi).countP_eq fun m => m.memberGuid == guid
  rw [List.countP_cons, ← (removeAtIndexFast_perm hi).countP_eq, ← member_eq hi, hguid,
    if_pos (beq_self_eq_true guid)] at hperm
  rw [membersOf_eq, membersOf_eq]
  exact hperm

/-- `EvenTeams` evens teams that were even before a member left, unless that leaves as many
members for every team and the member was not on the largest one. -/
theorem canBeEvened_removeTeamMember {s : TeamBalancer} (h : WellCounted s) (heven : TeamsEven s)
    {i : ℕ} (hi : i < s.teamMembers.length)
    (hfits : s.teamLimits.length ≤ 2 ∨ (s.teamMembers.length % s.teamLimits.length = 1 →
      s.minTeamMembers < s.count (s.member i).currentTeam)) :
    CanBeEvened (s.removeTeamMember i) := by
  have hpos : 0 < s.teamLimits.length := List.length_pos_iff.mpr h.teams
  have hsum := sum_membersOn h
  have hmembers := even_membersOn h heven
  have hremoved := becomes_removeTeamMember h hi
  have hlength : (s.removeTeamMember i).teamMembers.length = s.teamMembers.length - 1 := by
    have hone := length_removeTeamMember hi
    omega
  have hlimits : (s.removeTeamMember i).teamLimits = s.teamLimits := rfl
  have hcount : ∀ team < s.teamLimits.length,
      (s.removeTeamMember i).count team = less s.membersOn (s.member i).currentTeam team := by
    intro team hteam
    rw [hremoved.counted.counts team hteam, hremoved.membersOn]
  have hle : ∀ team < s.teamLimits.length,
      (s.removeTeamMember i).count team ≤ s.membersOn team := by
    intro team hteam
    rw [hcount team hteam, less]
    split <;> omega
  rw [CanBeEvened, minTeamMembers, hlength, hlimits]
  rcases hfits with htwo | hfits
  · exact Or.inl htwo
  · by_cases hzero : s.teamMembers.length % s.teamLimits.length = 0
    · have hpred := mod_pred_of_mod_zero hpos (by omega) hzero
      by_cases htwo : s.teamLimits.length ≤ 2
      · exact Or.inl htwo
      · refine Or.inr (Or.inr (Or.inr ⟨by omega, fun team hteam => ?_⟩))
        have hless := hle team hteam
        rw [hmembers.eq_div hsum hzero hteam] at hless
        omega
    · have hpred := div_mod_pred hpos (Nat.pos_of_ne_zero hzero)
      by_cases hone : s.teamMembers.length % s.teamLimits.length = 1
      · refine Or.inr (Or.inr (Or.inl ⟨by omega, fun team hteam => ?_⟩))
        have hlevel := even_less h heven hi (Or.inr (hfits hone))
        have hsum' := sum_membersOn hremoved.counted
        rw [hremoved.membersOn, hlength, hlimits] at hsum'
        rw [hcount team hteam]
        exact hlevel.eq_div hsum' (by omega) hteam
      · by_cases htwo : s.teamMembers.length % s.teamLimits.length = 2
        · exact Or.inr (Or.inl (by omega))
        · refine Or.inr (Or.inr (Or.inr ⟨by omega, fun team hteam => ?_⟩))
          have hless := hle team hteam
          have hhigh := hmembers.le_div hsum hteam
          omega

/-- The state and the index while the members of a lost connection are removed. -/
structure Dropping (s : TeamBalancer) (guid : ℕ) (s' : TeamBalancer) (i : ℕ) : Prop
    extends SameSettings s s' where
  counted : WellCounted s'
  even : TeamsEven s'
  length_le : s'.teamMembers.length ≤ s.teamMembers.length
  members : s'.membersOf guid + (s.teamMembers.length - s'.teamMembers.length) = s.membersOf guid
  first : s'.teamMembers.length = s.teamMembers.length →
    s' = s ∧ ∀ j < i, j < s.teamMembers.length → (s.member j).memberGuid ≠ guid

theorem Dropping.skip {s s' : TeamBalancer} {guid i : ℕ} (h : Dropping s guid s' i)
    (hguid : (s'.member i).memberGuid ≠ guid) : Dropping s guid s' (i + 1) := by
  refine ⟨h.toSameSettings, h.counted, h.even, h.length_le, h.members, fun hlength => ?_⟩
  obtain ⟨rfl, hbefore⟩ := h.first hlength
  refine ⟨rfl, fun j hj hlt => ?_⟩
  by_cases hji : j < i
  · exact hbefore j hji hlt
  · obtain rfl : j = i := by omega
    exact hguid

theorem Dropping.drop {s s' : TeamBalancer} {guid i : ℕ} (h : Dropping s guid s' i)
    (hs : WellCounted s) (heven : TeamsEven s) (hroomy : Roomy s) (hforced : Forced s)
    (hfits : s.teamLimits.length ≤ 2 ∨
      ∀ dropped < s.membersOf guid,
        (s.teamMembers.length - dropped) % s.teamLimits.length = 1 → dropped = 0 ∧
          ∀ i, (s.teamMembers.findIdx? fun m => m.memberGuid == guid) = some i →
            s.minTeamMembers < s.count (s.member i).currentTeam)
    (hi : i < s'.teamMembers.length) (hguid : (s'.member i).memberGuid = guid) :
    Yields False
      (fun s'' => Dropping s guid s'' i ∧ s''.teamMembers.length < s'.teamMembers.length)
      (afterDrop randomMT fuel (s'.member i).currentTeam (s'.removeTeamMember i)) := by
  have hlength := length_removeTeamMember hi
  have hmembers := membersOf_removeTeamMember hi hguid
  have hle := h.length_le
  have hdropped := h.members
  have hcan : CanBeEvened (s'.removeTeamMember i) := by
    apply canBeEvened_removeTeamMember h.counted h.even hi
    rw [h.teamLimits]
    refine hfits.imp id fun hfits hone => ?_
    obtain ⟨hzero, hfirst⟩ := hfits (s.teamMembers.length - s'.teamMembers.length) (by omega)
      (by rwa [Nat.sub_sub_self hle])
    obtain ⟨rfl, hbefore⟩ := h.first (by omega)
    apply hfirst i
    rw [List.findIdx?_eq_some_iff_getElem]
    refine ⟨hi, by rw [← member_eq hi, hguid, beq_self_eq_true], fun j hj => ?_⟩
    have hne := hbefore j hj (by omega)
    rw [member_eq (by omega)] at hne
    simpa using hne
  have hforce : (s'.removeTeamMember i).forceTeamsToBeEven = true := h.force.trans hforced.1
  have hlock : (s'.removeTeamMember i).lockTeams = false := h.lock.trans hforced.2
  rw [afterDrop, if_neg (by rw [hlock]; decide), if_pos hforce]
  refine (evenTeams_even (h.counted.removeTeamMember hi) (fun he => he.elim) hcan).mono ?_
  rintro s'' ⟨hs'', heven''⟩
  have hlength'' := hs''.length
  have hlimits : s''.teamLimits = s.teamLimits := hs''.teamLimits.trans h.teamLimits
  refine ⟨⟨⟨hs''.algorithm.trans h.algorithm, hs''.force.trans h.force, hs''.lock.trans h.lock,
    hlimits⟩, hs''.counted, ?_, by omega, ?_, by omega⟩, by omega⟩
  · refine teamsEven_of_even hs''.counted hs''.teamLimits (heven'' ?_)
    intro team hteam hlimit
    have hteam' : team < s.teamLimits.length := h.teamLimits ▸ hteam
    have hlow := (even_membersOn hs heven).div_le (sum_membersOn hs) hteam'
    have hless := hroomy team hteam'
    have hlimit' : (s'.removeTeamMember i).limit team = s.limit team := h.limit team
    have hmin : (s'.removeTeamMember i).minTeamMembers ≤ s.minTeamMembers := by
      have hk : (s'.removeTeamMember i).teamLimits.length = s.teamLimits.length := by
        rw [← h.teamLimits]
        rfl
      rw [minTeamMembers, minTeamMembers, hk]
      exact Nat.div_le_div_right (by omega)
    rw [minTeamMembers] at hmin
    rw [← hs.counts team hteam'] at hlow
    rw [minTeamMembers]
    rw [minTeamMembers] at hmin
    omega
  · have hkeys : s''.membersOf guid = (s'.removeTeamMember i).membersOf guid := by
      rw [membersOf, membersOf, hs''.keys]
    omega

theorem removeByGuid_even {s : TeamBalancer} (h : WellCounted s) (heven : TeamsEven s)
    (hroomy : Roomy s) (hforced : Forced s) {guid : ℕ}
    (hkeeps : KeepsEven s (.closedConnection guid)) :
    Yields False TeamsEven (removeByGuid randomMT fuel guid s) := by
  refine (removeByGuid_yields (Dropping s guid) (fun he => he.elim) ?_ ?_ ?_).mono ?_
  · exact fun s' i hs' _ hguid => hs'.skip hguid
  · exact fun s' i hs' hi _ hguid => hs'.drop h heven hroomy hforced (hkeeps hforced) hi hguid
  · refine ⟨SameSettings.refl s, h, heven, le_refl _, by omega, fun _ => ⟨rfl, ?_⟩⟩
    intro j hj
    omega
  · rintro s' ⟨i, hs', -⟩
    exact hs'.even

/-! ### Every operation -/

theorem CanBeEvened.congr {s s' : TeamBalancer} (h : CanBeEvened s)
    (hlimits : s'.teamLimits = s.teamLimits)
    (hlength : s'.teamMembers.length = s.teamMembers.length)
    (hcounts : ∀ team < s.teamLimits.length, s'.count team = s.count team) : CanBeEvened s' := by
  have hmin : s'.minTeamMembers = s.minTeamMembers := by
    rw [minTeamMembers, minTeamMembers, hlength, hlimits]
  rw [CanBeEvened, hlimits, hlength, hmin]
  rcases h with htwo | hone | ⟨hzero, hlevel⟩ | ⟨hmore, hbound⟩
  · exact Or.inl htwo
  · exact Or.inr (Or.inl hone)
  · refine Or.inr (Or.inr (Or.inl ⟨hzero, fun team hteam => ?_⟩))
    rw [hcounts team hteam, hlevel team hteam]
  · refine Or.inr (Or.inr (Or.inr ⟨hmore, fun team hteam => ?_⟩))
    rw [hcounts team hteam]
    exact hbound team hteam

/-- `EvenTeams` evens the teams if no limit is reached in the end. -/
theorem evenTeams_roomy {s : TeamBalancer} (h : WellCounted s) (hcan : CanBeEvened s) :
    Yields False (fun s' => Roomy s' → TeamsEven s') (evenTeams randomMT fuel s) := by
  refine (evenTeams_even h (fun he => he.elim) hcan).mono ?_
  rintro s' ⟨hs', heven⟩ hroomy
  refine teamsEven_of_even hs'.counted hs'.teamLimits (heven fun team hteam hlimit => ?_)
  have hteam' : team < s'.teamLimits.length := hs'.teamLimits.symm ▸ hteam
  have hless := hroomy team hteam'
  rw [hs'.limit, hs'.counted.counts team hteam'] at hless
  omega

theorem setForceEvenTeams_even {s : TeamBalancer} (h : WellCounted s) {force : Bool}
    (hkeeps : KeepsEven s (.setForceEvenTeams force)) :
    Yields False (fun s' => Roomy s' → StaysEven s')
      (setForceEvenTeams randomMT fuel force s) := by
  rw [setForceEvenTeams]
  by_cases hlock : s.lockTeams = true
  · rw [if_pos hlock]
    intro _ hforced
    have hunlocked : s.lockTeams = false := hforced.2
    rw [hlock] at hunlocked
    cases hunlocked
  · rw [if_neg hlock]
    by_cases hforce : force = true
    · rw [if_pos hforce]
      have hflagged : WellCounted { s with forceTeamsToBeEven := force } := h.congr rfl rfl rfl
      have hcan : CanBeEvened { s with forceTeamsToBeEven := force } :=
        (hkeeps hforce (by simpa using hlock)).congr rfl rfl fun _ _ => rfl
      exact (evenTeams_roomy hflagged hcan).mono fun s' hs' hroomy _ => hs' hroomy
    · rw [if_neg hforce]
      exact fun _ hforced => absurd hforced.1 hforce

theorem setLockTeams_even {s : TeamBalancer} (h : WellCounted s)
    (heven : StaysEven s) {lock : Bool} (hkeeps : KeepsEven s (.setLockTeams lock)) :
    Yields False (fun s' => Roomy s' → StaysEven s')
      (setLockTeams randomMT fuel lock s) := by
  rw [setLockTeams]
  by_cases hsame : lock = s.lockTeams
  · rw [if_pos hsame]
    exact fun _ => heven
  · rw [if_neg hsame]
    cases lock with
    | true =>
      intro _ hforced
      have hunlocked : true = false := hforced.2
      cases hunlocked
    | false =>
      have hlocked : WellCounted { s with lockTeams := false } := h.congr rfl rfl rfl
      rw [if_neg (by decide)]
      apply (processSwaps_yields hlocked (fun he => he.elim) fun he => he.elim).bind
      intro s' hs'
      by_cases hforce : s'.forceTeamsToBeEven = true
      · rw [if_pos hforce]
        have hcan : CanBeEvened s' := by
          have hforce' : s.forceTeamsToBeEven = true := hs'.force.symm.trans hforce
          refine (hkeeps rfl (by simpa using hsame) hforce').congr hs'.teamLimits hs'.length ?_
          intro team hteam
          have hteam' : team < s'.teamLimits.length := hs'.teamLimits.symm ▸ hteam
          rw [hs'.counted.counts team hteam', hs'.membersOn, h.counts team hteam]
          rfl
        exact (evenTeams_roomy hs'.counted hcan).mono fun s'' hs'' hroomy _ => hs'' hroomy
      · rw [if_neg hforce]
        refine (processRequests_yields hs'.counted (fun he => he.elim) fun he => he.elim).mono ?_
        rintro s'' ⟨-, hs''⟩ _ hforced
        exact absurd (hs''.force.symm.trans hforced.1) hforce

theorem SameSettings.forced {s s' : TeamBalancer} (h : SameSettings s s') (hs' : Forced s') :
    Forced s := ⟨h.force.symm.trans hs'.1, h.lock.symm.trans hs'.2⟩

theorem onRequestSpecificTeam_even {s : TeamBalancer} (h : WellCounted s)
    (heven : StaysEven s) (hroomy : Roomy s) {guid memberId desiredTeam : ℕ}
    (hkeeps : KeepsEven s (.requestSpecificTeam guid memberId desiredTeam)) :
    StaysEven (onRequestSpecificTeam guid memberId desiredTeam s) := by
  apply onRequestSpecificTeam_rule h guid memberId desiredTeam
  · intro s' hs' hforced
    exact hs'.teamsEven (even_membersOn h (heven (hs'.forced hforced)))
  · intro i s' hindex hunassigned hs' hforced
    have hforced' := hs'.forced hforced
    have hlargest := ((hkeeps hforced').2 i hindex).1 hunassigned
    exact hs'.teamsEven (even_less h (heven hforced') (getMemberIndex_lt hindex) hlargest)
  · intro s' hindex hteam hover hroom hs' hforced
    have hforced' := hs'.forced hforced
    have hlimit := hroomy desiredTeam hteam
    rw [teamWouldBeOverpopulatedOnAddition, if_neg (by omega), if_pos hforced'.1,
      decide_eq_true_iff] at hover
    have hfits := (hkeeps hforced').1 hindex (by rw [minTeamMembers]; omega)
    have hle := count_getNextDefaultTeam_le h hroomy hfits hroom
    exact hs'.teamsEven (even_more h (heven hforced') hroom.1 hle)
  · intro s' hover hteam hs' hforced
    have hforced' := hs'.forced hforced
    have hroom := not_overpopulated hover
    rw [teamWouldBeOverpopulatedOnAddition, if_neg (by omega), if_pos hforced'.1,
      decide_eq_false_iff_not] at hover
    exact hs'.teamsEven (even_more h (heven hforced') hteam (by rw [minTeamMembers]; omega))
  · intro i s' hindex hteam hne hallowed hs' hforced
    have hforced' := hs'.forced hforced
    refine hs'.teamsEven (even_switch h (heven hforced') (getMemberIndex_lt hindex) hforced'.1 hteam
      hallowed fun hone hle => ((hkeeps hforced').2 i hindex).2 hone hne hle)

theorem perform_even {s s' : TeamBalancer} (h : WellCounted s) (heven : StaysEven s)
    (hroomy : Roomy s) {op : Operation} (hkeeps : KeepsEven s op)
    (hperform : perform randomMT fuel s op = some s') (hroomy' : Roomy s') : StaysEven s' := by
  cases op with
  | setForceEvenTeams force => exact (setForceEvenTeams_even h hkeeps).post hperform hroomy'
  | setLockTeams lock => exact (setLockTeams_even h heven hkeeps).post hperform hroomy'
  | deleteMember memberId =>
    obtain rfl := Option.some.inj hperform
    apply deleteMember_rule h memberId heven
    intro i s' hfind hs' hforced
    have hforced' := hs'.forced hforced
    have hi := (List.findIdx?_eq_some_iff_getElem.mp hfind).1
    exact hs'.teamsEven (even_less h (heven hforced') hi (hkeeps hforced' i hfind))
  | cancelTeamRequest guid memberId =>
    obtain rfl := Option.some.inj hperform
    have hs' := becomes_onCancelTeamRequest h guid memberId
    exact fun hforced => hs'.teamsEven (even_membersOn h (heven (hs'.forced hforced)))
  | requestAnyTeam guid memberId =>
    obtain rfl := Option.some.inj hperform
    have hindex : s.getMemberIndex memberId guid = none ∨
        onRequestAnyTeam guid memberId s = s := by
      cases hindex : s.getMemberIndex memberId guid with
      | none => exact Or.inl rfl
      | some i => exact Or.inr (by rw [onRequestAnyTeam, hindex])
    rcases hindex with hindex | hsame
    · apply onRequestAnyTeam_rule h guid memberId heven
      intro s' hroom hs' hforced
      have hforced' := hs'.forced hforced
      have hle := count_getNextDefaultTeam_le h hroomy (hkeeps hforced' hindex) hroom
      exact hs'.teamsEven (even_more h (heven hforced') hroom.1 hle)
    · rw [hsame]
      exact heven
  | requestSpecificTeam guid memberId desiredTeam =>
    obtain rfl := Option.some.inj hperform
    exact onRequestSpecificTeam_even h heven hroomy hkeeps
  | closedConnection guid =>
    have hsettings : SameSettings s s' :=
      ((removeByGuid_kept h (fun he : False => he.elim) fun he => he.elim).post hperform).2
    intro hforced
    have hforced' := hsettings.forced hforced
    exact (removeByGuid_even h (heven hforced') hroomy hforced' hkeeps).post hperform

/-- The steps of a host whose limits are not reached. -/
def RoomyStep (randomMT : ℕ → ℕ) (s s' : TeamBalancer) : Prop :=
  Roomy s ∧ Roomy s' ∧ ∃ op, Performs randomMT s op s'

/-- The steps of a host whose limits are not reached and that keep the teams even. -/
def EvenStep (randomMT : ℕ → ℕ) (s s' : TeamBalancer) : Prop :=
  Roomy s ∧ Roomy s' ∧ ∃ op, KeepsEven s op ∧ Performs randomMT s op s'

/-- In every state that such steps reach the teams of a host that evens them are even. -/
theorem teams_stay_even {algorithm : DefaultAssigmentAlgorithm} {teamLimits : List ℕ}
    (hteams : teamLimits ≠ []) (hids : teamLimits.length ≤ unassignedTeamId)
    (hlimits : ∀ limit ∈ teamLimits, limit < 65536) {s : TeamBalancer}
    (h : Relation.ReflTransGen (EvenStep randomMT) (start algorithm teamLimits) s)
    (hforce : s.forceTeamsToBeEven = true) (hlock : s.lockTeams = false) :
    ∀ team < teamLimits.length, ∀ team' < teamLimits.length,
      s.count team ≤ s.count team' + 1 := by
  have hinv : Kept (start algorithm teamLimits) s ∧ StaysEven s := by
    clear hforce hlock
    induction h with
    | refl =>
      refine ⟨⟨wellCounted_start hteams hids hlimits, rfl⟩, ?_⟩
      rintro ⟨hforce, -⟩
      cases hforce
    | tail _ hstep ih =>
      obtain ⟨hroomy, hroomy', op, hkeeps, fuel, hperform⟩ := hstep
      have hkept := (perform_yields randomMT ih.1.counted op).post hperform
      exact ⟨⟨hkept.counted, hkept.teamLimits.trans ih.1.teamLimits⟩,
        perform_even ih.1.counted ih.2 hroomy hkeeps hperform hroomy'⟩
  have heven := hinv.2 ⟨hforce, hlock⟩
  rw [TeamsEven, hinv.1.teamLimits] at heven
  exact heven

instance (s : TeamBalancer) : Decidable (Roomy s) :=
  inferInstanceAs (Decidable (∀ team < s.teamLimits.length, s.count team < s.limit team))

/-- A host that evens its two teams, with one member. -/
def forcedHost : TeamBalancer :=
  onRequestAnyTeam 1 7 { start .smallestTeam [9, 9] with forceTeamsToBeEven := true }

theorem teams_stay_even_forcedHost : forcedHost.count 0 ≤ forcedHost.count 1 + 1 := by
  have hfirst : EvenStep id (start .smallestTeam [9, 9])
      { start .smallestTeam [9, 9] with forceTeamsToBeEven := true } :=
    ⟨by decide, by decide, .setForceEvenTeams true, fun _ _ => Or.inl (by decide), 1, rfl⟩
  have hsecond : EvenStep id { start .smallestTeam [9, 9] with forceTeamsToBeEven := true }
      forcedHost :=
    ⟨by decide, by decide, .requestAnyTeam 1 7, fun _ _ => Or.inl rfl, 0, rfl⟩
  exact teams_stay_even (by decide) (by decide) (by decide)
    ((Relation.ReflTransGen.single hfirst).tail hsecond) rfl rfl 0 (by decide) 1 (by decide)

/-- A run whose states are checked. -/
def roomyRun (fuel : ℕ) (ops : List Operation) (s : TeamBalancer) : Option TeamBalancer :=
  ops.foldlM (fun s' op => (perform id fuel s' op).filter fun s'' => decide (Roomy s' ∧ Roomy s''))
    s

theorem reaches_of_roomyRun {ops : List Operation} {s s' : TeamBalancer}
    (h : roomyRun fuel ops s = some s') : Relation.ReflTransGen (RoomyStep id) s s' := by
  induction ops generalizing s with
  | nil =>
    obtain rfl := Option.some.inj h
    exact Relation.ReflTransGen.refl
  | cons op ops ih =>
    obtain ⟨s'', hs'', hrest⟩ := Option.bind_eq_some_iff.mp h
    obtain ⟨hperform, hroomy⟩ := Option.filter_eq_some_iff.mp hs''
    rw [decide_eq_true_iff] at hroomy
    exact Relation.ReflTransGen.head ⟨hroomy.1, hroomy.2, op, fuel, hperform⟩ (ih hrest)

/-- Four members join two teams, and the two of the second team ask to have no team: the host does
not even the teams. -/
def leavingRun : List Operation :=
  [.setForceEvenTeams true, .requestAnyTeam 1 0, .requestAnyTeam 2 0, .requestAnyTeam 3 0,
    .requestAnyTeam 4 0, .requestSpecificTeam 2 0 unassignedTeamId,
    .requestSpecificTeam 4 0 unassignedTeamId]

theorem leavingRun_uneven : ∃ s,
    Relation.ReflTransGen (RoomyStep id) (start .smallestTeam [9, 9]) s ∧
      s.forceTeamsToBeEven = true ∧ s.lockTeams = false ∧ s.count 0 = 2 ∧ s.count 1 = 0 := by
  have hrun : ((roomyRun 1 leavingRun (start .smallestTeam [9, 9])).map fun s =>
      (s.forceTeamsToBeEven, s.lockTeams, s.count 0, s.count 1)) = some (true, false, 2, 0) := by
    decide
  obtain ⟨s, hs, hcounts⟩ := Option.map_eq_some_iff.mp hrun
  simp only [Prod.mk.injEq] at hcounts
  exact ⟨s, reaches_of_roomyRun hs, hcounts⟩

end TeamBalancer

end SLikeNet
