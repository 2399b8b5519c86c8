import SLikeNet.TeamRebalancing

/-! What the messages to the host do to the counts of the teams. -/

namespace SLikeNet

open FuelledLoop EvenCounts

namespace TeamBalancer

/-- Some settings are the same, the counts are right, and they are `counts`. -/
structure Becomes (s : TeamBalancer) (counts : ℕ → ℕ) (s' : TeamBalancer) : Prop
    extends SameSettings s s' where
  counted : WellCounted s'
  membersOn : s'.membersOn = counts

theorem Becomes.notifyTeamAssigment {s s' : TeamBalancer} {counts : ℕ → ℕ}
    (h : Becomes s counts s') (i : ℕ) : Becomes s counts (s'.notifyTeamAssigment i) where
  toSameSettings :=
    h.toSameSettings.trans (rearranged_notifyTeamAssigment s' i).toSameSettings
  counted := h.counted.notifyTeamAssigment i
  membersOn := by
    rw [← h.membersOn]
    exact funext (membersOn_notifyTeamAssigment s' i)

theorem Becomes.notify {s s' : TeamBalancer} {counts : ℕ → ℕ} (h : Becomes s counts s')
    (notification : TeamNotification) : Becomes s counts (s'.notify notification) where
  toSameSettings := ⟨h.algorithm, h.force, h.lock, h.teamLimits⟩
  counted := h.counted.congr rfl rfl rfl
  membersOn := h.membersOn

theorem becomes_refl {s : TeamBalancer} (h : WellCounted s) : Becomes s s.membersOn s :=
  ⟨SameSettings.refl s, h, rfl⟩

theorem becomes_removeTeamMember {s : TeamBalancer} (h : WellCounted s) {i : ℕ}
    (hi : i < s.teamMembers.length) :
    Becomes s (less s.membersOn (s.member i).currentTeam) (s.removeTeamMember i) where
  toSameSettings := ⟨rfl, rfl, rfl, rfl⟩
  counted := h.removeTeamMember hi
  membersOn := by
    funext team
    have hon := membersOn_removeTeamMember hi team
    rw [less]
    by_cases hteam : team = (s.member i).currentTeam
    · rw [if_pos hteam]
      rw [if_pos hteam.symm] at hon
      omega
    · rw [if_neg hteam]
      rw [if_neg fun hc => hteam hc.symm] at hon
      omega

theorem becomes_recordRequest {s : TeamBalancer} (h : WellCounted s) {i : ℕ}
    (hi : i < s.teamMembers.length) {desiredTeam : ℕ}
    (hteam : desiredTeam < s.teamLimits.length ∨ desiredTeam = unassignedTeamId) :
    Becomes s s.membersOn (s.recordRequest i desiredTeam) where
  toSameSettings := ⟨rfl, rfl, rfl, rfl⟩
  counted := h.recordRequest hi hteam
  membersOn := funext (membersOn_recordRequest hi desiredTeam)

theorem becomes_swapTeamMembersByRequest {s : TeamBalancer} (h : WellCounted s) {i j : ℕ}
    (hi : i < s.teamMembers.length) (hj : j < s.teamMembers.length) :
    Becomes s s.membersOn (s.swapTeamMembersByRequest i j) where
  toSameSettings := ⟨rfl, rfl, rfl, rfl⟩
  counted := h.swapTeamMembersByRequest hi hj
  membersOn := funext (membersOn_swapTeamMembersByRequest hi hj)

/-! ### The choice of a team -/

/-- A team that a new member can be put on. -/
def HasRoom (s : TeamBalancer) (team : ℕ) : Prop :=
  team < s.teamLimits.length ∧ s.count team < s.limit team

theorem getFirstNonFullTeam_room {s : TeamBalancer} (h : WellCounted s) :
    s.getFirstNonFullTeam = unassignedTeamId ∨ s.HasRoom s.getFirstNonFullTeam := by
  rw [getFirstNonFullTeam]
  cases hfind : (List.range s.teamMemberCounts.length).find? fun team =>
      decide (s.count team < s.limit team) with
  | none => exact Or.inl rfl
  | some team =>
    have hmem := List.mem_of_find?_eq_some hfind
    have hroom := List.find?_some hfind
    rw [List.mem_range, h.lengths] at hmem
    exact Or.inr ⟨hmem, decide_eq_true_iff.mp hroom⟩

/-- The smallest team found among the teams below `n`. -/
structure SmallestBelow (s : TeamBalancer) (n : ℕ) (best : ℕ × ℕ) : Prop where
  room : best.2 = unassignedTeamId ∨ s.HasRoom best.2
  least : ∀ team < n, s.count team < s.limit team → best.1 ≤ s.count team
  count : best.2 ≠ unassignedTeamId → s.count best.2 = best.1
  none : best.2 = unassignedTeamId → best.1 = maxUnsignedLong

theorem smallestBelow_smallerTeam {s : TeamBalancer} (h : WellCounted s) {n : ℕ} {best : ℕ × ℕ}
    (hn : n < s.teamLimits.length) (hbest : SmallestBelow s n best) :
    SmallestBelow s (n + 1) (s.smallerTeam best n) := by
  have hids := h.teamIds
  rw [smallerTeam]
  by_cases hless : s.count n < best.1 ∧ s.count n < s.limit n
  · rw [if_pos hless]
    constructor
    · exact Or.inr ⟨hn, hless.2⟩
    · intro team hteam hroom
      by_cases hlt : team < n
      · have hle := hbest.least team hlt hroom
        dsimp only
        omega
      · obtain rfl : team = n := by omega
        exact le_refl _
    · exact fun _ => rfl
    · intro hn'
      dsimp only at hn'
      omega
  · rw [if_neg hless]
    refine ⟨hbest.room, ?_, hbest.count, hbest.none⟩
    intro team hteam hroom
    by_cases hlt : team < n
    · exact hbest.least team hlt hroom
    · obtain rfl : team = n := by omega
      omega

theorem smallestBelow_foldl {s : TeamBalancer} (h : WellCounted s) {n : ℕ}
    (hn : n ≤ s.teamLimits.length) :
    SmallestBelow s n ((List.range n).foldl s.smallerTeam (maxUnsignedLong, unassignedTeamId)) := by
  induction n with
  | zero => exact ⟨Or.inl rfl, fun _ hlt => absurd hlt (by omega), fun hne => absurd rfl hne,
      fun _ => rfl⟩
  | succ n ih =>
    rw [List.range_succ, List.foldl_append]
    exact smallestBelow_smallerTeam h hn (ih (by omega))

theorem getNextDefaultTeam_room {s : TeamBalancer} (h : WellCounted s) :
    s.getNextDefaultTeam = unassignedTeamId ∨ s.HasRoom s.getNextDefaultTeam := by
  cases halgorithm : s.defaultAssigmentAlgorithm with
  | smallestTeam =>
    rw [getNextDefaultTeam, halgorithm]
    have hsmallest := smallestBelow_foldl h (le_refl _)
    rw [← h.lengths] at hsmallest
    exact hsmallest.room
  | fillInOrder =>
    rw [getNextDefaultTeam, halgorithm]
    exact getFirstNonFullTeam_room h

theorem not_overpopulated {s : TeamBalancer} {team size : ℕ}
    (h : s.teamWouldBeOverpopulatedOnAddition team size = false) :
    s.count team < s.limit team := by
  rw [teamWouldBeOverpopulatedOnAddition] at h
  by_contra hnot
  rw [if_pos (by omega)] at h
  cases h

/-! ### A member joins -/

theorem getMemberIndex_lt {s : TeamBalancer} {memberId guid i : ℕ}
    (h : s.getMemberIndex memberId guid = some i) : i < s.teamMembers.length := by
  rw [getMemberIndex, List.findIdx?_eq_some_iff_getElem] at h
  exact h.1

theorem getMemberIndex_none {s : TeamBalancer} {memberId guid : ℕ}
    (h : s.getMemberIndex memberId guid = none) : (guid, memberId) ∉ s.keys := by
  rw [getMemberIndex, List.findIdx?_eq_none_iff] at h
  intro hmem
  obtain ⟨m, hm, hkey⟩ := List.mem_map.mp hmem
  have hfound := h m hm
  obtain ⟨rfl, rfl⟩ := Prod.mk.inj hkey
  simp at hfound

theorem becomes_join {s : TeamBalancer} (h : WellCounted s) {tm : TeamMember}
    (hroom : s.HasRoom tm.currentTeam)
    (hrequested : tm.requestedTeam < s.teamLimits.length ∨ tm.requestedTeam = unassignedTeamId)
    (hnew : (tm.memberGuid, tm.memberId) ∉ s.keys) :
    Becomes s (more s.membersOn tm.currentTeam) (s.join tm) := by
  have hids := h.teamIds
  have hlt := hroom.1
  rw [join, if_neg (by omega)]
  apply Becomes.notifyTeamAssigment
  refine ⟨?_, h.addTeamMember ⟨hlt, hrequested⟩ hroom.2 hnew, ?_⟩
  · rw [addTeamMember, if_neg (by omega)]
    exact ⟨rfl, rfl, rfl, rfl⟩
  · funext team
    rw [membersOn_addTeamMember hlt, more]
    by_cases hteam : team = tm.currentTeam
    · rw [if_pos hteam, if_pos hteam.symm]
    · rw [if_neg hteam, if_neg fun hc => hteam hc.symm, Nat.add_zero]

theorem join_default {s : TeamBalancer} (h : WellCounted s) {tm : TeamMember}
    (hteam : tm.currentTeam = s.getNextDefaultTeam)
    (hrequested : tm.requestedTeam < s.teamLimits.length ∨ tm.requestedTeam = unassignedTeamId)
    (hnew : (tm.memberGuid, tm.memberId) ∉ s.keys) {P : TeamBalancer → Prop} (hsame : P s)
    (hjoin : ∀ s', s.HasRoom s.getNextDefaultTeam →
      Becomes s (more s.membersOn s.getNextDefaultTeam) s' → P s') : P (s.join tm) := by
  rcases getNextDefaultTeam_room h with hnone | hroom
  · rw [join, if_pos (hteam.trans hnone)]
    exact hsame
  · rw [← hteam] at hroom hjoin
    exact hjoin _ hroom (becomes_join h hroom hrequested hnew)

/-! ### The messages -/

theorem deleteMember_rule {s : TeamBalancer} (h : WellCounted s) (memberId : ℕ)
    {P : TeamBalancer → Prop} (hsame : P s)
    (hleave : ∀ i s', (s.teamMembers.findIdx? fun m => m.memberId == memberId) = some i →
      Becomes s (less s.membersOn (s.member i).currentTeam) s' → P s') :
    P (deleteMember memberId s) := by
  rw [deleteMember]
  cases hfind : s.teamMembers.findIdx? fun m => m.memberId == memberId with
  | none => exact hsame
  | some i =>
    have hi := (List.findIdx?_eq_some_iff_getElem.mp hfind).1
    exact hleave i _ hfind (becomes_removeTeamMember h hi)

theorem becomes_onCancelTeamRequest {s : TeamBalancer} (h : WellCounted s) (guid memberId : ℕ) :
    Becomes s s.membersOn (onCancelTeamRequest guid memberId s) := by
  rw [onCancelTeamRequest]
  cases hindex : s.getMemberIndex memberId guid with
  | none => exact becomes_refl h
  | some i => exact becomes_recordRequest h (getMemberIndex_lt hindex) (Or.inr rfl)

theorem onRequestAnyTeam_rule {s : TeamBalancer} (h : WellCounted s) (guid memberId : ℕ)
    {P : TeamBalancer → Prop} (hsame : P s)
    (hjoin : ∀ s', s.HasRoom s.getNextDefaultTeam →
      Becomes s (more s.membersOn s.getNextDefaultTeam) s' → P s') :
    P (onRequestAnyTeam guid memberId s) := by
  rw [onRequestAnyTeam]
  cases hindex : s.getMemberIndex memberId guid with
  | none => exact join_default h rfl (Or.inr rfl) (getMemberIndex_none hindex) hsame hjoin
  | some i => exact hsame

theorem member_recordRequest {s : TeamBalancer} {i : ℕ} (hi : i < s.teamMembers.length)
    (desiredTeam : ℕ) :
    (s.recordRequest i desiredTeam).member i =
      { s.member i with requestedTeam := desiredTeam } := by
  rw [member_eq (by simpa [recordRequest] using hi)]
  simp [recordRequest]

theorem teamsWouldBeEvenOnSwitch_recordRequest (s : TeamBalancer) (i desiredTeam t1 t2 : ℕ) :
    (s.recordRequest i desiredTeam).teamsWouldBeEvenOnSwitch t1 t2 =
      s.teamsWouldBeEvenOnSwitch t1 t2 := by
  have hlength : (s.recordRequest i desiredTeam).teamMembers.length = s.teamMembers.length := by
    simp [recordRequest]
  rw [teamsWouldBeEvenOnSwitch, teamsWouldBeEvenOnSwitch, hlength]
  rfl

theorem Becomes.trans {s s' s'' : TeamBalancer} {counts : ℕ → ℕ}
    (h : Becomes s s.membersOn s') (h' : Becomes s' counts s'') : Becomes s counts s'' :=
  ⟨h.toSameSettings.trans h'.toSameSettings, h'.counted, h'.membersOn⟩

theorem switchOrSwap_rule {s : TeamBalancer} (h : WellCounted s) {i desiredTeam : ℕ}
    (hi : i < s.teamMembers.length) (hteam : desiredTeam < s.teamLimits.length)
    {P : TeamBalancer → Prop} (hsame : ∀ s', Becomes s s.membersOn s' → P s')
    (hswitch : ∀ s', (s.member i).currentTeam ≠ desiredTeam →
      s.teamsWouldBeEvenOnSwitch desiredTeam (s.member i).currentTeam = true →
        Becomes s (moved s.membersOn (s.member i).currentTeam desiredTeam) s' → P s') :
    P (s.switchOrSwap i desiredTeam) := by
  rw [switchOrSwap]
  by_cases heven : s.teamsWouldBeEvenOnSwitch desiredTeam (s.member i).currentTeam = true
  · have hroom : s.count desiredTeam < s.limit desiredTeam := by
      rw [teamsWouldBeEvenOnSwitch, Bool.and_eq_true, Bool.not_eq_true'] at heven
      exact not_overpopulated heven.1
    have hcounted := h.switchMemberTeam hi hteam (Or.inr hroom)
    have hsettings := (rearranged_switchMemberTeam hi desiredTeam).toSameSettings
    rw [if_pos heven]
    by_cases hne : (s.member i).currentTeam = desiredTeam
    · apply hsame
      refine Becomes.notifyTeamAssigment ⟨hsettings, hcounted, ?_⟩ i
      funext team
      have hon := membersOn_switchMemberTeam hi desiredTeam team
      rw [hne] at hon
      omega
    · apply hswitch _ hne heven
      exact Becomes.notifyTeamAssigment ⟨hsettings, hcounted, membersOn_moved hi hne⟩ i
  · rw [if_neg heven]
    apply hsame
    cases hswap : s.swappableMemberIndex desiredTeam (s.member i).currentTeam with
    | none => exact (becomes_refl h).notify _
    | some j =>
      have hj := (List.findIdx?_eq_some_iff_getElem.mp hswap).1
      exact ((becomes_swapTeamMembersByRequest h hi hj).notifyTeamAssigment i).notifyTeamAssigment j

theorem onRequestSpecificTeam_rule {s : TeamBalancer} (h : WellCounted s)
    (guid memberId desiredTeam : ℕ) {P : TeamBalancer → Prop}
    (hsame : ∀ s', Becomes s s.membersOn s' → P s')
    (hleave : ∀ i s', s.getMemberIndex memberId guid = some i → desiredTeam = unassignedTeamId →
      Becomes s (less s.membersOn (s.member i).currentTeam) s' → P s')
    (hdefault : ∀ s', s.getMemberIndex memberId guid = none →
      desiredTeam < s.teamLimits.length →
        s.teamWouldBeOverpopulatedOnAddition desiredTeam s.teamMembers.length = true →
          s.HasRoom s.getNextDefaultTeam →
            Becomes s (more s.membersOn s.getNextDefaultTeam) s' → P s')
    (hdesired : ∀ s',
      s.teamWouldBeOverpopulatedOnAddition desiredTeam s.teamMembers.length = false →
        desiredTeam < s.teamLimits.length →
          Becomes s (more s.membersOn desiredTeam) s' → P s')
    (hswitch : ∀ i s', s.getMemberIndex memberId guid = some i →
      desiredTeam < s.teamLimits.length → (s.member i).currentTeam ≠ desiredTeam →
        s.teamsWouldBeEvenOnSwitch desiredTeam (s.member i).currentTeam = true →
          Becomes s (moved s.membersOn (s.member i).currentTeam desiredTeam) s' → P s') :
    P (onRequestSpecificTeam guid memberId desiredTeam s) := by
  rw [onRequestSpecificTeam]
  by_cases hunassigned : desiredTeam = unassignedTeamId
  · rw [if_pos hunassigned]
    cases hindex : s.getMemberIndex memberId guid with
    | none => exact hsame _ ((becomes_refl h).notify _)
    | some i =>
      have hnotified := (becomes_refl h).notify (.teamAssigned guid unassignedTeamId memberId)
      have hremoved := becomes_removeTeamMember hnotified.counted (getMemberIndex_lt hindex)
      exact hleave i _ hindex hunassigned (hnotified.trans hremoved)
  · rw [if_neg hunassigned]
    by_cases hteam : s.teamLimits.length ≤ desiredTeam
    · rw [if_pos hteam]
      exact hsame _ (becomes_refl h)
    · rw [if_neg hteam]
      cases hindex : s.getMemberIndex memberId guid with
      | none =>
        have hnew := getMemberIndex_none hindex
        dsimp only
        rw [joinSpecific]
        cases hover : s.teamWouldBeOverpopulatedOnAddition desiredTeam s.teamMembers.length with
        | true =>
          rw [if_pos rfl]
          exact join_default h rfl (Or.inl (by dsimp only; omega)) hnew
            (hsame _ (becomes_refl h)) fun s' => hdefault s' hindex (by omega) hover
        | false =>
          rw [if_neg (by simp)]
          have hroom : s.HasRoom desiredTeam := ⟨by omega, not_overpopulated hover⟩
          exact hdesired _ hover hroom.1
            (@becomes_join s h ⟨guid, memberId, desiredTeam, unassignedTeamId⟩ hroom (Or.inr rfl)
              hnew)
      | some i =>
        have hi := getMemberIndex_lt hindex
        have hrecorded := becomes_recordRequest h hi (Or.inl (by omega : desiredTeam < _))
        dsimp only
        by_cases hlock : s.lockTeams = true
        · rw [if_pos hlock]
          exact hsame _ (hrecorded.notify _)
        · rw [if_neg hlock]
          have hcurrent : ((s.recordRequest i desiredTeam).member i).currentTeam =
              (s.member i).currentTeam := by rw [member_recordRequest hi]
          have hi' : i < (s.recordRequest i desiredTeam).teamMembers.length := by
            simpa [recordRequest] using hi
          apply switchOrSwap_rule hrecorded.counted hi' (by omega : desiredTeam < s.teamLimits.length)
          · intro s' hs'
            rw [hrecorded.membersOn] at hs'
            exact hsame s' (hrecorded.trans hs')
          · intro s' hne heven hs'
            rw [hcurrent] at hne
            rw [hcurrent, teamsWouldBeEvenOnSwitch_recordRequest] at heven
            rw [hcurrent, hrecorded.membersOn] at hs'
            exact hswitch i s' hindex (by omega) hne heven (hrecorded.trans hs')

end TeamBalancer

end SLikeNet
