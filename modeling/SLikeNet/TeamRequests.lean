import SLikeNet.Library.Transition
import SLikeNet.TeamLimits

/-! The requests that wait on a host that does not force its teams to be even: whether each of them
is for a team that is full, and no two of them could be met by a swap. -/

namespace SLikeNet

open FuelledLoop EvenCounts

def TeamMember.Waits (m : TeamMember) (team : ℕ) : Prop :=
  m.requestedTeam = team ∧ team ≠ unassignedTeamId ∧ m.currentTeam ≠ team

namespace TeamBalancer

/-- No member waits for a team with room, and no two wait for the team of each other. -/
structure Settled (s : TeamBalancer) : Prop where
  full : ∀ m ∈ s.teamMembers, ∀ team, m.Waits team → s.limit team ≤ s.count team
  apart : ∀ m ∈ s.teamMembers, ∀ m' ∈ s.teamMembers,
    ¬ (m.Waits m'.currentTeam ∧ m'.Waits m.currentTeam)

def IsWanted (s : TeamBalancer) (team : ℕ) : Prop := ∃ m ∈ s.teamMembers, m.Waits team

/-- The member at `i` of the loop over the requests goes to a team with room. -/
def MovesAt (s : TeamBalancer) (i : ℕ) : Prop :=
  (s.member i).Waits (s.member i).requestedTeam ∧
    s.count (s.member i).requestedTeam < s.limit (s.member i).requestedTeam

/-- When the member at `i` goes, no member before it waits for the team that it leaves. -/
def LeavesUnwanted (s : TeamBalancer) (i : ℕ) : Prop :=
  s.MovesAt i → ∀ k < i, ¬ (s.member k).Waits (s.member i).currentTeam

/-- Nobody waits for the team that a member leaves to have no team any more or, by its own request,
for a team with room; and no turn of the loop over the requests of an unlocked host leaves a team
that a member before it waits for. -/
def Wakes (s : TeamBalancer) : Operation → Prop
  | .deleteMember memberId => s.lockTeams = false →
    ∀ i, (s.teamMembers.findIdx? fun m => m.memberId == memberId) = some i →
      ¬ s.IsWanted (s.member i).currentTeam
  | .requestSpecificTeam guid memberId desiredTeam => s.lockTeams = false →
    ∀ i, s.getMemberIndex memberId guid = some i →
      desiredTeam = unassignedTeamId ∨ desiredTeam < s.teamLimits.length ∧
        s.count desiredTeam < s.limit desiredTeam ∧ desiredTeam ≠ (s.member i).currentTeam →
      ¬ s.IsWanted (s.member i).currentTeam
  | .setLockTeams lock => lock = false → s.lockTeams = true →
    ∀ fuel s', processSwaps fuel { s with lockTeams := lock } = some s' →
      Transition.Along (fun s i => s.moveIfNotFull i) LeavesUnwanted s'
        (List.range s'.teamMembers.length)
  | .setForceEvenTeams force => force = false
  | _ => True

variable {s s' : TeamBalancer} {counts : ℕ → ℕ} {i j fuel : ℕ} {randomMT : ℕ → ℕ}

/-! ### Members that stay -/

theorem waits_lt (hs : WellCounted s) {m : TeamMember} (hm : m ∈ s.teamMembers) {team : ℕ}
    (hwaits : m.Waits team) : team < s.teamLimits.length := by
  obtain ⟨rfl, hne, -⟩ := hwaits
  exact (hs.valid m hm).requested.resolve_right hne

theorem not_waits_of_unassigned {m : TeamMember} (h : m.requestedTeam = unassignedTeamId)
    (team : ℕ) : ¬ m.Waits team := by
  rintro ⟨rfl, hne, -⟩
  exact hne h

theorem Settled.notifyTeamAssigment (h : Settled s) (i : ℕ) :
    Settled (s.notifyTeamAssigment i) := by
  obtain ⟨sent, hsent⟩ := notifyTeamAssigment_eq s i
  rw [hsent]
  exact ⟨h.full, h.apart⟩

/-- Members that have begun to wait are dealt with apart; the others still wait for a team that has
not lost a member. -/
theorem Settled.becomes (h : Settled s) (hs : WellCounted s) (hb : Becomes s counts s')
    (hmembers : ∀ m ∈ s'.teamMembers, m ∈ s.teamMembers ∨ ∀ team, ¬ m.Waits team)
    (hcounts : ∀ m ∈ s.teamMembers, ∀ team, m.Waits team → s.membersOn team ≤ counts team) :
    Settled s' := by
  have hold : ∀ m ∈ s'.teamMembers, ∀ team, m.Waits team → m ∈ s.teamMembers :=
    fun m hm team hwaits => (hmembers m hm).resolve_right fun hnot => hnot team hwaits
  constructor
  · intro m hm team hwaits
    have hm' := hold m hm team hwaits
    have hfull := h.full m hm' team hwaits
    have hteam := waits_lt hs hm' hwaits
    have hcount := hb.counted.counts team (hb.teamLimits ▸ hteam)
    have hle := hcounts m hm' team hwaits
    rw [hb.toSameSettings.limit, hcount, hb.membersOn]
    rw [hs.counts team hteam] at hfull
    omega
  · rintro m hm m' hm' ⟨hwaits, hwaits'⟩
    exact h.apart m (hold m hm _ hwaits) m' (hold m' hm' _ hwaits') ⟨hwaits, hwaits'⟩

theorem mem_of_mem_removeTeamMember (hi : i < s.teamMembers.length) {m : TeamMember}
    (hm : m ∈ (s.removeTeamMember i).teamMembers) : m ∈ s.teamMembers :=
  (List.eraseIdx_sublist s.teamMembers i).subset ((removeAtIndexFast_perm hi).mem_iff.mp hm)

theorem Settled.removeTeamMember (h : Settled s) (hs : WellCounted s)
    (hi : i < s.teamMembers.length) (hnot : ¬ s.IsWanted (s.member i).currentTeam) :
    Settled (s.removeTeamMember i) := by
  refine h.becomes hs (becomes_removeTeamMember hs hi)
    (fun m hm => .inl (mem_of_mem_removeTeamMember hi hm)) fun m hm team hwaits => ?_
  rw [less, if_neg]
  rintro rfl
  exact hnot ⟨m, hm, hwaits⟩

theorem Settled.onCancelTeamRequest (h : Settled s) (hs : WellCounted s) (guid memberId : ℕ) :
    Settled (onCancelTeamRequest guid memberId s) := by
  refine h.becomes hs (becomes_onCancelTeamRequest hs guid memberId) (fun m hm => ?_)
    fun m hm team hwaits => Nat.le_refl _
  rw [TeamBalancer.onCancelTeamRequest] at hm
  split at hm
  · exact .inl hm
  · obtain hm | rfl := List.mem_or_eq_of_mem_set hm
    · exact .inl hm
    · exact .inr (not_waits_of_unassigned rfl)

theorem Settled.deleteMember (h : Settled s) (hs : WellCounted s) (hlock : s.lockTeams = false)
    {memberId : ℕ} (hwakes : s.Wakes (.deleteMember memberId)) :
    Settled (deleteMember memberId s) := by
  rw [TeamBalancer.deleteMember]
  cases hfind : s.teamMembers.findIdx? fun m => m.memberId == memberId with
  | none => exact h
  | some i =>
    have hi := (List.findIdx?_eq_some_iff_getElem.mp hfind).1
    exact h.removeTeamMember hs hi (hwakes hlock i hfind)

/-! ### New members -/

theorem mem_join {tm m : TeamMember} (hm : m ∈ (s.join tm).teamMembers) :
    m ∈ s.teamMembers ∨ m = tm := by
  rw [join] at hm
  split at hm
  · exact .inl hm
  · rw [teamMembers_notifyTeamAssigment, addTeamMember] at hm
    split at hm
    · exact .inl hm
    · obtain hm | hm := List.mem_append.mp hm
      · exact .inl hm
      · exact .inr (List.mem_singleton.mp hm)

theorem Settled.join (h : Settled s) (hs : WellCounted s) {tm : TeamMember}
    (hroom : tm.currentTeam = unassignedTeamId ∨ s.HasRoom tm.currentTeam)
    (hrequested : tm.requestedTeam < s.teamLimits.length ∨ tm.requestedTeam = unassignedTeamId)
    (hfull : ∀ team, tm.Waits team → s.limit team ≤ s.count team)
    (hnew : (tm.memberGuid, tm.memberId) ∉ s.keys) : Settled (s.join tm) := by
  obtain hnone | hroom := hroom
  · rw [TeamBalancer.join, if_pos hnone]
    exact h
  have hb := becomes_join hs hroom hrequested hnew
  have hkeeps : ∀ team, team < s.teamLimits.length → s.limit team ≤ s.count team →
      (s.join tm).limit team ≤ (s.join tm).count team := by
    intro team hteam hle
    have hmore : s.membersOn team ≤ more s.membersOn tm.currentTeam team := by
      rw [more]
      split <;> omega
    rw [hb.toSameSettings.limit, hb.counted.counts team (hb.teamLimits ▸ hteam), hb.membersOn]
    rw [hs.counts team hteam] at hle
    omega
  have hunwanted : ∀ m ∈ s.teamMembers, ¬ m.Waits tm.currentTeam := fun m hm hwaits =>
    absurd (h.full m hm _ hwaits) (Nat.not_le.mpr hroom.2)
  constructor
  · intro m hm team hwaits
    obtain hold | rfl := mem_join hm
    · exact hkeeps team (waits_lt hs hold hwaits) (h.full m hold team hwaits)
    · have hteam : team < s.teamLimits.length := by
        obtain ⟨rfl, hne, -⟩ := hwaits
        exact hrequested.resolve_right hne
      exact hkeeps team hteam (hfull team hwaits)
  · rintro m hm m' hm' ⟨hwaits, hwaits'⟩
    obtain hold | hold := mem_join hm
    · obtain hold' | rfl := mem_join hm'
      · exact h.apart m hold m' hold' ⟨hwaits, hwaits'⟩
      · exact hunwanted m hold hwaits
    · subst hold
      obtain hold' | rfl := mem_join hm'
      · exact hunwanted m' hold' hwaits'
      · exact hwaits.2.2 rfl

theorem full_of_overpopulated (hforce : s.forceTeamsToBeEven = false) {team size : ℕ}
    (h : s.teamWouldBeOverpopulatedOnAddition team size = true) : s.limit team ≤ s.count team := by
  rw [teamWouldBeOverpopulatedOnAddition, hforce] at h
  by_contra hroom
  rw [if_neg hroom] at h
  cases h

theorem Settled.joinSpecific (h : Settled s) (hs : WellCounted s)
    (hforce : s.forceTeamsToBeEven = false) {guid memberId desiredTeam : ℕ}
    (hteam : desiredTeam < s.teamLimits.length) (hnew : (guid, memberId) ∉ s.keys) :
    Settled (joinSpecific guid memberId desiredTeam s) := by
  rw [TeamBalancer.joinSpecific]
  cases hover : s.teamWouldBeOverpopulatedOnAddition desiredTeam s.teamMembers.length with
  | true =>
    rw [if_pos rfl]
    refine h.join hs (getNextDefaultTeam_room hs) (.inl hteam) ?_ hnew
    rintro team ⟨rfl, -, -⟩
    exact full_of_overpopulated hforce hover
  | false =>
    rw [if_neg Bool.false_ne_true]
    exact h.join hs (.inr ⟨hteam, not_overpopulated hover⟩) (.inr rfl)
      (fun team hwaits => absurd hwaits (not_waits_of_unassigned rfl team)) hnew

theorem Settled.onRequestAnyTeam (h : Settled s) (hs : WellCounted s) (guid memberId : ℕ) :
    Settled (onRequestAnyTeam guid memberId s) := by
  rw [TeamBalancer.onRequestAnyTeam]
  cases hindex : s.getMemberIndex memberId guid with
  | none =>
    exact h.join hs (getNextDefaultTeam_room hs) (.inr rfl)
      (fun team hwaits => absurd hwaits (not_waits_of_unassigned rfl team))
      (getMemberIndex_none hindex)
  | some i => exact h

/-! ### The request of a member that has a team -/

theorem members_switch_recordRequest (s : TeamBalancer) (i desiredTeam : ℕ) :
    ((s.recordRequest i desiredTeam).switchMemberTeam i desiredTeam).teamMembers =
      s.teamMembers.set i
        { (s.recordRequest i desiredTeam).member i with
          currentTeam := desiredTeam
          requestedTeam :=
            if ((s.recordRequest i desiredTeam).member i).requestedTeam = desiredTeam then
              unassignedTeamId
            else ((s.recordRequest i desiredTeam).member i).requestedTeam } :=
  List.set_set ..

theorem mem_switch_recordRequest (hi : i < s.teamMembers.length) {desiredTeam : ℕ}
    {m : TeamMember}
    (hm : m ∈ ((s.recordRequest i desiredTeam).switchMemberTeam i desiredTeam).teamMembers) :
    m ∈ s.teamMembers ∨ ∀ team, ¬ m.Waits team := by
  rw [members_switch_recordRequest, member_recordRequest hi, if_pos rfl] at hm
  obtain hm | rfl := List.mem_or_eq_of_mem_set hm
  · exact .inl hm
  · exact .inr (not_waits_of_unassigned rfl)

theorem mem_swap_recordRequest {desiredTeam : ℕ} {m : TeamMember}
    (hm : m ∈ ((s.recordRequest i desiredTeam).swapTeamMembersByRequest i j).teamMembers) :
    m ∈ s.teamMembers ∨ ∀ team, ¬ m.Waits team := by
  obtain hm | rfl := List.mem_or_eq_of_mem_set hm
  · rw [recordRequest, List.set_set] at hm
    obtain hm | rfl := List.mem_or_eq_of_mem_set hm
    · exact .inl hm
    · exact .inr (not_waits_of_unassigned rfl)
  · exact .inr (not_waits_of_unassigned rfl)

theorem becomes_switchMemberTeam (hs : WellCounted s) (hi : i < s.teamMembers.length) {team : ℕ}
    (hteam : team < s.teamLimits.length) (hroom : s.count team < s.limit team) :
    Becomes s (s.switchMemberTeam i team).membersOn (s.switchMemberTeam i team) :=
  ⟨(rearranged_switchMemberTeam hi team).toSameSettings,
    hs.switchMemberTeam hi hteam (.inr hroom), rfl⟩

theorem membersOn_le_switchMemberTeam (hi : i < s.teamMembers.length) {destinationTeam team : ℕ}
    (hstays : (s.member i).currentTeam = team → destinationTeam = team) :
    s.membersOn team ≤ (s.switchMemberTeam i destinationTeam).membersOn team := by
  have hon := membersOn_switchMemberTeam hi destinationTeam team
  by_cases hcurrent : (s.member i).currentTeam = team
  · rw [if_pos hcurrent, if_pos (hstays hcurrent)] at hon
    omega
  · rw [if_neg hcurrent] at hon
    omega

theorem swappable_of_waits {desiredTeam oldTeam : ℕ} {m : TeamMember} (hm : m ∈ s.teamMembers)
    (hcurrent : m.currentTeam = desiredTeam) (hrequested : m.requestedTeam = oldTeam) :
    s.swappableMemberIndex desiredTeam oldTeam ≠ none := by
  intro hnone
  rw [swappableMemberIndex, List.findIdx?_eq_none_iff] at hnone
  have hnot := hnone m hm
  rw [hcurrent, hrequested] at hnot
  simp at hnot

theorem Settled.waits (h : Settled s) {desiredTeam : ℕ}
    (hfull : s.limit desiredTeam ≤ s.count desiredTeam)
    (hnobody : (s.recordRequest i desiredTeam).swappableMemberIndex desiredTeam
      (s.member i).currentTeam = none) : Settled (s.recordRequest i desiredTeam) := by
  have hmem : ∀ m ∈ (s.recordRequest i desiredTeam).teamMembers,
      m ∈ s.teamMembers ∨ m = { s.member i with requestedTeam := desiredTeam } :=
    fun m hm => List.mem_or_eq_of_mem_set hm
  constructor
  · intro m hm team hwaits
    obtain hold | rfl := hmem m hm
    · exact h.full m hold team hwaits
    · obtain ⟨rfl, -, -⟩ := hwaits
      exact hfull
  · rintro m hm m' hm' ⟨hwaits, hwaits'⟩
    obtain hold | hnew := hmem m hm
    · obtain hold' | rfl := hmem m' hm'
      · exact h.apart m hold m' hold' ⟨hwaits, hwaits'⟩
      · exact swappable_of_waits hm hwaits'.1.symm hwaits.1 hnobody
    · subst hnew
      obtain hold' | rfl := hmem m' hm'
      · exact swappable_of_waits hm' hwaits.1.symm hwaits'.1 hnobody
      · exact hwaits.2.2 rfl

theorem Settled.switchOrSwap (h : Settled s) (hs : WellCounted s)
    (hforce : s.forceTeamsToBeEven = false) (hi : i < s.teamMembers.length) {desiredTeam : ℕ}
    (hteam : desiredTeam < s.teamLimits.length)
    (hunwanted : s.count desiredTeam < s.limit desiredTeam →
      desiredTeam ≠ (s.member i).currentTeam → ¬ s.IsWanted (s.member i).currentTeam) :
    Settled ((s.recordRequest i desiredTeam).switchOrSwap i desiredTeam) := by
  have hrecorded := becomes_recordRequest hs hi (.inl hteam)
  have hi' : i < (s.recordRequest i desiredTeam).teamMembers.length := by
    simpa [recordRequest] using hi
  have hcurrent : ((s.recordRequest i desiredTeam).member i).currentTeam =
      (s.member i).currentTeam := by rw [member_recordRequest hi]
  rw [TeamBalancer.switchOrSwap]
  by_cases heven : (s.recordRequest i desiredTeam).teamsWouldBeEvenOnSwitch desiredTeam
      ((s.recordRequest i desiredTeam).member i).currentTeam = true
  · rw [if_pos heven]
    rw [teamsWouldBeEvenOnSwitch, Bool.and_eq_true, Bool.not_eq_true'] at heven
    have hroom : s.count desiredTeam < s.limit desiredTeam := not_overpopulated heven.1
    apply Settled.notifyTeamAssigment
    have hswitched := becomes_switchMemberTeam hrecorded.counted hi' hteam hroom
    refine h.becomes hs (hrecorded.trans hswitched) (fun m hm => mem_switch_recordRequest hi hm) ?_
    intro m hm team hwaits
    rw [← hrecorded.membersOn]
    apply membersOn_le_switchMemberTeam hi'
    rintro rfl
    by_contra hleaves
    rw [hcurrent] at hwaits hleaves
    exact hunwanted hroom hleaves ⟨m, hm, hwaits⟩
  · rw [if_neg heven]
    cases hswap : (s.recordRequest i desiredTeam).swappableMemberIndex desiredTeam
        ((s.recordRequest i desiredTeam).member i).currentTeam with
    | some j =>
      have hj := (List.findIdx?_eq_some_iff_getElem.mp hswap).1
      apply Settled.notifyTeamAssigment
      apply Settled.notifyTeamAssigment
      have hswapped := becomes_swapTeamMembersByRequest hrecorded.counted hi' hj
      rw [hrecorded.membersOn] at hswapped
      exact h.becomes hs (hrecorded.trans hswapped) (fun m hm => mem_swap_recordRequest hm)
        fun _ _ _ _ => Nat.le_refl _
    | none =>
      have hfull : s.limit desiredTeam ≤ s.count desiredTeam := by
        rw [teamsWouldBeEvenOnSwitch, teamWouldBeUnderpopulatedOnLeave,
          if_neg (by rw [hrecorded.force, hforce]; exact Bool.false_ne_true), Bool.not_false,
          Bool.and_true, Bool.not_eq_true', Bool.not_eq_false] at heven
        exact full_of_overpopulated (hrecorded.force.trans hforce) heven
      rw [hcurrent] at hswap
      have hwaits := h.waits hfull hswap
      exact ⟨hwaits.full, hwaits.apart⟩

theorem Settled.onRequestSpecificTeam (h : Settled s) (hs : WellCounted s)
    (hforce : s.forceTeamsToBeEven = false) (hlock : s.lockTeams = false)
    {guid memberId desiredTeam : ℕ}
    (hwakes : s.Wakes (.requestSpecificTeam guid memberId desiredTeam)) :
    Settled (onRequestSpecificTeam guid memberId desiredTeam s) := by
  rw [TeamBalancer.onRequestSpecificTeam]
  by_cases hunassigned : desiredTeam = unassignedTeamId
  · rw [if_pos hunassigned]
    cases hindex : s.getMemberIndex memberId guid with
    | none => exact ⟨h.full, h.apart⟩
    | some i =>
      have hunwanted := hwakes hlock i hindex (.inl hunassigned)
      have hleft := h.removeTeamMember hs (getMemberIndex_lt hindex) hunwanted
      exact ⟨hleft.full, hleft.apart⟩
  · rw [if_neg hunassigned]
    by_cases hteam : s.teamLimits.length ≤ desiredTeam
    · rw [if_pos hteam]
      exact h
    · rw [if_neg hteam]
      rw [Nat.not_le] at hteam
      cases hindex : s.getMemberIndex memberId guid with
      | none => exact h.joinSpecific hs hforce hteam (getMemberIndex_none hindex)
      | some i =>
        dsimp only
        rw [hlock, if_neg Bool.false_ne_true]
        exact h.switchOrSwap hs hforce (getMemberIndex_lt hindex) hteam fun hroom hleaves =>
          hwakes hlock i hindex (.inr ⟨hteam, hroom, hleaves⟩)

/-! ### Closed connections -/

/-- The requests while a member that waits for a team is moved to it. -/
structure Freed (s : TeamBalancer) (freed : ℕ) : Prop where
  full : ∀ m ∈ s.teamMembers, ∀ team, m.Waits team → team ≠ freed → s.limit team ≤ s.count team
  almost : ∀ m ∈ s.teamMembers, m.Waits freed → s.limit freed ≤ s.count freed + 1
  apart : ∀ m ∈ s.teamMembers, ∀ m' ∈ s.teamMembers,
    ¬ (m.Waits m'.currentTeam ∧ m'.Waits m.currentTeam)

theorem Freed.settled (h : Freed s j) (hunwanted : s.count j < s.limit j → ¬ s.IsWanted j) :
    Settled s := by
  refine ⟨fun m hm team hwaits => ?_, h.apart⟩
  by_cases hteam : team = j
  · rw [hteam] at hwaits ⊢
    by_contra hroom
    exact hunwanted (Nat.not_le.mp hroom) ⟨m, hm, hwaits⟩
  · exact h.full m hm team hwaits hteam

theorem Settled.freed (h : Settled s) (hs : WellCounted s) (hi : i < s.teamMembers.length) :
    Freed (s.removeTeamMember i) (s.member i).currentTeam := by
  have hb := becomes_removeTeamMember hs hi
  have hold : ∀ m ∈ (s.removeTeamMember i).teamMembers, ∀ team, m.Waits team →
      m ∈ s.teamMembers ∧ s.limit team ≤ s.membersOn team ∧
        (s.removeTeamMember i).count team = less s.membersOn (s.member i).currentTeam team := by
    intro m hm team hwaits
    have hm' := mem_of_mem_removeTeamMember hi hm
    have hteam := waits_lt hs hm' hwaits
    have hfull := h.full m hm' team hwaits
    rw [hs.counts team hteam] at hfull
    refine ⟨hm', hfull, ?_⟩
    rw [hb.counted.counts team hteam, hb.membersOn]
  constructor
  · intro m hm team hwaits hne
    obtain ⟨-, hfull, hcount⟩ := hold m hm team hwaits
    rw [hb.toSameSettings.limit, hcount, less, if_neg hne]
    exact hfull
  · intro m hm hwaits
    obtain ⟨-, hfull, hcount⟩ := hold m hm _ hwaits
    rw [hb.toSameSettings.limit, hcount, less, if_pos rfl]
    omega
  · rintro m hm m' hm' ⟨hwaits, hwaits'⟩
    exact h.apart m (hold m hm _ hwaits).1 m' (hold m' hm' _ hwaits').1 ⟨hwaits, hwaits'⟩

theorem mem_joining {team : ℕ} {joining : List ℕ}
    (h : s.membersThatWantToJoin fuel team = some joining) (hi : i < s.teamMembers.length)
    (hrequested : (s.member i).requestedTeam = team) : i ∈ joining := by
  refine countedLoop_some
    (fun k joining => ∀ i < k, (s.member i).requestedTeam = team → i ∈ joining) ?_ (by omega)
    (Nat.zero_le _) (fun i hlt => absurd hlt (Nat.not_lt_zero i)) h i hi hrequested
  intro k joining joining' _ hinv hstep i hlt hrequested
  by_cases hk : (s.member k).requestedTeam = team
  · rw [if_pos hk] at hstep
    rw [← Option.some.inj hstep, List.mem_append, List.mem_singleton]
    by_cases heq : i = k
    · exact .inr heq
    · exact .inl (hinv i (by omega) hrequested)
  · rw [if_neg hk] at hstep
    rw [← Option.some.inj hstep]
    refine hinv i ?_ hrequested
    by_contra hge
    obtain rfl : i = k := by omega
    exact hk hrequested

theorem mem_switchMemberTeam {team : ℕ} (hrequested : (s.member i).requestedTeam = team)
    {m : TeamMember} (hm : m ∈ (s.switchMemberTeam i team).teamMembers) :
    m ∈ s.teamMembers ∨ ∀ team, ¬ m.Waits team := by
  obtain hm | rfl := List.mem_or_eq_of_mem_set hm
  · exact .inl hm
  · exact .inr (not_waits_of_unassigned (if_pos hrequested))

theorem Freed.switchMemberTeam {team : ℕ} (h : Freed s team) (hs : WellCounted s)
    (hi : i < s.teamMembers.length) (hteam : team < s.teamLimits.length)
    (hroom : s.count team < s.limit team) (hrequested : (s.member i).requestedTeam = team) :
    Freed (s.switchMemberTeam i team) (s.member i).currentTeam := by
  have hb := becomes_switchMemberTeam hs hi hteam hroom
  have hold : ∀ m ∈ (s.switchMemberTeam i team).teamMembers, ∀ t, m.Waits t →
      m ∈ s.teamMembers ∧ s.count t = s.membersOn t ∧
        (s.switchMemberTeam i team).count t = (s.switchMemberTeam i team).membersOn t := by
    intro m hm t hwaits
    have hm' := (mem_switchMemberTeam hrequested hm).resolve_right fun hnot => hnot t hwaits
    have ht := waits_lt hs hm' hwaits
    exact ⟨hm', hs.counts t ht, hb.counted.counts t ht⟩
  constructor
  · intro m hm t hwaits hne
    obtain ⟨hm', hcount, hcount'⟩ := hold m hm t hwaits
    have hon := membersOn_switchMemberTeam hi team t
    rw [if_neg hne.symm] at hon
    rw [hb.toSameSettings.limit]
    by_cases ht : t = team
    · subst ht
      have halmost := h.almost m hm' hwaits
      rw [if_pos rfl] at hon
      omega
    · have hfull := h.full m hm' t hwaits ht
      omega
  · intro m hm hwaits
    obtain ⟨hm', hcount, hcount'⟩ := hold m hm _ hwaits
    have hon := membersOn_switchMemberTeam hi team (s.member i).currentTeam
    rw [if_pos rfl] at hon
    rw [hb.toSameSettings.limit]
    by_cases ht : (s.member i).currentTeam = team
    · rw [if_pos ht.symm] at hon
      have halmost := h.almost m hm' (ht ▸ hwaits)
      rw [← ht] at halmost
      omega
    · have hfull := h.full m hm' _ hwaits ht
      omega
  · rintro m hm m' hm' ⟨hwaits, hwaits'⟩
    exact h.apart m (hold m hm _ hwaits).1 m' (hold m' hm' _ hwaits').1 ⟨hwaits, hwaits'⟩

theorem Freed.notifyTeamAssigment {team : ℕ} (h : Freed s team) (i : ℕ) :
    Freed (s.notifyTeamAssigment i) team := by
  obtain ⟨sent, hsent⟩ := notifyTeamAssigment_eq s i
  rw [hsent]
  exact ⟨h.full, h.almost, h.apart⟩

/-- Where the chain of moves has got to. -/
structure Filling (s : TeamBalancer) (r : TeamBalancer × ℕ) : Prop extends Chained s r where
  freed : r.2 ≠ unassignedTeamId → Freed r.1 r.2
  settled : r.2 = unassignedTeamId → Settled r.1

theorem Filling.next {r r' : TeamBalancer × ℕ} (h : Filling s r) (hteam : r.2 ≠ unassignedTeamId)
    (hnext : r.1.moveMemberThatWantsToJoinTeamInternal randomMT fuel r.2 = some r') :
    Filling s r' := by
  have hchained : Chained s r' :=
    ((moveMemberInternal_yields h.toChained hteam False.elim
      False.elim).post hnext).1
  rw [moveMemberThatWantsToJoinTeamInternal] at hnext
  obtain ⟨joining, hjoining, hmove⟩ := Option.bind_eq_some_iff.mp hnext
  by_cases hnone : joining = []
  · rw [if_pos hnone] at hmove
    obtain rfl := Option.some.inj hmove
    refine ⟨hchained, fun hne => absurd rfl hne, fun _ => (h.freed hteam).settled ?_⟩
    rintro - ⟨m, hm, hwaits⟩
    obtain ⟨i, hi, rfl⟩ := List.getElem_of_mem hm
    rw [← member_eq hi] at hwaits
    have hmem := mem_joining hjoining hi hwaits.1
    rw [hnone] at hmem
    cases hmem
  · rw [if_neg hnone] at hmove
    obtain ⟨i, hchosen, rfl⟩ := Option.map_eq_some_iff.mp hmove
    obtain ⟨i', hi', hchosen'⟩ := choose_mem randomMT (s := r.1) hnone
    obtain rfl := Option.some.inj (hchosen'.symm.trans hchosen)
    have hwants := (membersThatWantToJoin_yields r.2 False.elim
      False.elim).post hjoining
    obtain ⟨hi, hrequested⟩ := hwants i' hi'
    have hroom := h.room hteam
    rw [← h.rearranged.teamLimits, ← h.rearranged.limit] at hroom
    have hdrawn : Freed r.1.countDraw r.2 :=
      ⟨(h.freed hteam).full, (h.freed hteam).almost, (h.freed hteam).apart⟩
    have hcounted : WellCounted r.1.countDraw := h.counted.congr rfl rfl rfl
    have hids := h.counted.teamIds
    have hcurrent := h.counted.current_member hi
    refine ⟨hchained, fun _ => ?_, fun hnone => ?_⟩
    · exact (hdrawn.switchMemberTeam hcounted hi hroom.1 hroom.2 hrequested).notifyTeamAssigment i'
    · dsimp only at hnone
      omega

theorem Freed.moveMemberThatWantsToJoinTeam {team : ℕ} (h : Freed s team) (hs : WellCounted s)
    (hteam : team < s.teamLimits.length) (hroom : s.count team < s.limit team)
    (hmoved : s.moveMemberThatWantsToJoinTeam randomMT fuel team = some s') : Settled s' := by
  have hids := hs.teamIds
  rw [TeamBalancer.moveMemberThatWantsToJoinTeam] at hmoved
  obtain ⟨last, hlast, rfl⟩ := Option.map_eq_some_iff.mp hmoved
  obtain ⟨r, hfirst, hloop⟩ := Option.bind_eq_some_iff.mp hlast
  have hstart : Filling s (s, team) :=
    ⟨⟨hs, Rearranged.refl s, fun _ => ⟨hteam, hroom⟩⟩, fun _ => h, fun hnone => by
      dsimp only at hnone
      omega⟩
  have hr := hstart.next (by dsimp only; omega) hfirst
  have hend := whileLoop_some (Filling s)
    (fun r r' hr hne hnext => hr.next (decide_eq_true_iff.mp hne) hnext) fuel r last hr hloop
  exact hend.1.settled (by simpa using hend.2)

theorem Freed.afterDrop {team : ℕ} (h : Freed s team) (hs : WellCounted s)
    (hteam : team < s.teamLimits.length) (hforce : s.forceTeamsToBeEven = false)
    (hlock : s.lockTeams = false) (hdrop : afterDrop randomMT fuel team s = some s') :
    Settled s' := by
  rw [TeamBalancer.afterDrop, hlock, hforce, if_neg Bool.false_ne_true,
    if_neg Bool.false_ne_true] at hdrop
  by_cases hfull : s.count team + 1 = s.limit team
  · rw [if_pos hfull] at hdrop
    exact h.moveMemberThatWantsToJoinTeam hs hteam (by omega) hdrop
  · rw [if_neg hfull] at hdrop
    obtain rfl := Option.some.inj hdrop
    refine h.settled ?_
    rintro hroom ⟨m, hm, hwaits⟩
    have halmost := h.almost m hm hwaits
    omega

theorem Settled.removeByGuid (h : Settled s) (hs : WellCounted s) (hlock : s.lockTeams = false)
    (hforce : s.forceTeamsToBeEven = false) {guid : ℕ}
    (hremoved : removeByGuid randomMT fuel guid s = some s') : Settled s' := by
  refine ((removeByGuid_yields
    (fun s' _ => (WellCounted s' ∧ SameSettings s s') ∧ Settled s') False.elim
      (fun _ _ hinv _ _ => hinv) ?_ ⟨⟨hs, SameSettings.refl s⟩, h⟩).post hremoved).elim
        fun _ hinv => hinv.1.2
  rintro s' i ⟨⟨hs', hsettings⟩, hsettled⟩ hi - -
  have hcounted := hs'.removeTeamMember hi
  have hteam := hs'.current_member hi
  have hsettings' : SameSettings s (s'.removeTeamMember i) := hsettings.trans ⟨rfl, rfl, rfl, rfl⟩
  have hlength := length_removeTeamMember hi
  cases hdrop : TeamBalancer.afterDrop randomMT fuel (s'.member i).currentTeam
      (s'.removeTeamMember i) with
  | none => exact id
  | some s'' =>
    have hkept := (afterDrop_yields hcounted hteam False.elim
      False.elim).post hdrop
    have hlength' := hkept.1.2.length
    exact ⟨⟨⟨hkept.1.1, hsettings'.trans hkept.1.2.toSameSettings⟩,
      (hsettled.freed hs' hi).afterDrop hcounted hteam (hsettings'.force.trans hforce)
        (hsettings'.lock.trans hlock) hdrop⟩, by omega⟩

/-! ### The host is unlocked -/

/-- The members at two positions wait for the team of each other. -/
def Crossed (s : TeamBalancer) (i j : ℕ) : Prop :=
  (s.member i).Waits (s.member j).currentTeam ∧ (s.member j).Waits (s.member i).currentTeam

/-- The member at a position is as it was, or has no request. -/
def KeptOrServed (s s' : TeamBalancer) (k : ℕ) : Prop :=
  s'.member k = s.member k ∨ (s'.member k).requestedTeam = unassignedTeamId

theorem member_notifyTeamAssigment (s : TeamBalancer) (i k : ℕ) :
    (s.notifyTeamAssigment i).member k = s.member k := by
  rw [member, teamMembers_notifyTeamAssigment]
  rfl

theorem member_set {members : List TeamMember} {m : TeamMember} (hi : i < members.length) (k : ℕ) :
    (members.set i m).getD k default = if k = i then m else members.getD k default := by
  rw [List.getD_eq_getElem?_getD, List.getD_eq_getElem?_getD, List.getElem?_set]
  by_cases hk : k = i
  · rw [if_pos hk, if_pos hk.symm, if_pos hi]
    rfl
  · rw [if_neg hk, if_neg (Ne.symm hk)]

theorem Crossed.of_kept {k : ℕ} (hi : KeptOrServed s s' i) (hk : KeptOrServed s s' k)
    (h : s'.Crossed i k) : s.Crossed i k ∧ s'.member i = s.member i := by
  obtain hi | hi := hi
  · obtain hk | hk := hk
    · rw [Crossed, hi, hk] at h
      exact ⟨h, hi⟩
    · exact absurd h.2 (not_waits_of_unassigned hk _)
  · exact absurd h.1 (not_waits_of_unassigned hi _)

theorem swapPair_spec (hi : i < s.teamMembers.length) (hj : j < s.teamMembers.length) :
    ¬ (s.swapPair i j).Crossed i j ∧ ∀ k, KeptOrServed s (s.swapPair i j) k := by
  rw [swapPair]
  by_cases hpair : (s.member j).requestedTeam = (s.member i).currentTeam ∧
      (s.member i).requestedTeam = (s.member j).currentTeam
  · rw [if_pos hpair]
    have hkept : ∀ k, KeptOrServed s (((s.swapTeamMembersByRequest i j).notifyTeamAssigment
        i).notifyTeamAssigment j) k ∧ (k = j → ((((s.swapTeamMembersByRequest i
          j).notifyTeamAssigment i).notifyTeamAssigment j).member k).requestedTeam =
            unassignedTeamId) := by
      intro k
      rw [KeptOrServed, member_notifyTeamAssigment, member_notifyTeamAssigment]
      have hk : (s.swapTeamMembersByRequest i j).member k = _ :=
        (member_set (by rwa [List.length_set]) k).trans (by rw [member_set hi])
      rw [hk]
      by_cases hkj : k = j
      · rw [if_pos hkj]
        exact ⟨.inr rfl, fun _ => rfl⟩
      · rw [if_neg hkj]
        by_cases hki : k = i
        · rw [if_pos hki]
          exact ⟨.inr rfl, fun h => absurd h hkj⟩
        · rw [if_neg hki]
          exact ⟨.inl rfl, fun h => absurd h hkj⟩
    exact ⟨fun hcrossed => not_waits_of_unassigned ((hkept j).2 rfl) _ hcrossed.2,
      fun k => (hkept k).1⟩
  · rw [if_neg hpair]
    exact ⟨fun hcrossed => hpair ⟨hcrossed.2.1, hcrossed.1.1⟩, fun k => .inl rfl⟩

theorem not_crossed_swapPair (hi : i < s.teamMembers.length) (hj : j < s.teamMembers.length)
    {a b : ℕ} (h : ¬ s.Crossed a b) : ¬ (s.swapPair i j).Crossed a b := by
  have hkept := (swapPair_spec hi hj).2
  exact fun hcrossed => h (hcrossed.of_kept (hkept a) (hkept b)).1

theorem swapPartners_some {s₁ s₂ : TeamBalancer} (hswapped : Swapped s s₁)
    (hi : i < s.teamMembers.length)
    (hbefore : ∀ a < i, ∀ b < s.teamMembers.length, ¬ s₁.Crossed a b)
    (hloop : countedLoop 256 s.teamMembers.length (fun j s'' => some (s''.swapPair i j)) fuel
      ((i + 1) % 256) s₁ = some s₂) :
    Swapped s s₂ ∧ ∀ a < i + 1, ∀ b < s.teamMembers.length, ¬ s₂.Crossed a b := by
  have hstart := Nat.mod_le (i + 1) 256
  have hend : Swapped s s₂ ∧ (∀ a < i, ∀ b < s.teamMembers.length, ¬ s₂.Crossed a b) ∧
      ∀ b < s.teamMembers.length, i < b → ¬ s₂.Crossed i b := by
    refine countedLoop_some
      (fun j s' => Swapped s s' ∧ (∀ a < i, ∀ b < s.teamMembers.length, ¬ s'.Crossed a b) ∧
        ∀ b < j, i < b → ¬ s'.Crossed i b) ?_ (Nat.mod_lt _ (by omega)) (by omega)
      ⟨hswapped, hbefore, fun b hlt hgt => absurd hlt (by omega)⟩ hloop
    rintro j s' s'' hj ⟨hswapped', hbefore', hself'⟩ hstep
    rw [← Option.some.inj hstep]
    have hi' : i < s'.teamMembers.length := hswapped'.length.symm ▸ hi
    have hj' : j < s'.teamMembers.length := hswapped'.length.symm ▸ hj
    refine ⟨swapped_swapPair hswapped' hi hj, fun a ha b hb => ?_, fun b hb hgt => ?_⟩
    · exact not_crossed_swapPair hi' hj' (hbefore' a ha b hb)
    · obtain hlt | rfl := Nat.lt_succ_iff_lt_or_eq.mp hb
      · exact not_crossed_swapPair hi' hj' (hself' b hlt hgt)
      · exact (swapPair_spec hi' hj').1
  obtain ⟨hswapped₂, hbefore₂, hself⟩ := hend
  refine ⟨hswapped₂, fun a ha b hb hcrossed => ?_⟩
  obtain hlt | rfl := Nat.lt_succ_iff_lt_or_eq.mp ha
  · exact hbefore₂ a hlt b hb hcrossed
  · obtain hlt | rfl | hgt := Nat.lt_trichotomy b a
    · exact hbefore₂ b hlt a hi ⟨hcrossed.2, hcrossed.1⟩
    · exact hcrossed.1.2.2 rfl
    · exact hself b hb hgt hcrossed

theorem processSwaps_some (hs : WellCounted s) (h : processSwaps fuel s = some s') :
    Swapped s s' ∧ ∀ a < s.teamMembers.length, ∀ b < s.teamMembers.length, ¬ s'.Crossed a b := by
  refine countedLoop_some (fun i s' => Swapped s s' ∧
    ∀ a < i, ∀ b < s.teamMembers.length, ¬ s'.Crossed a b) ?_ (by omega) (Nat.zero_le _)
      ⟨⟨Rearranged.refl s, hs, rfl⟩, fun a hlt => absurd hlt (Nat.not_lt_zero a)⟩ h
  rintro i s₁ s₂ hi ⟨hswapped, hbefore⟩ hstep
  by_cases hnone : (s₁.member i).requestedTeam = unassignedTeamId
  · rw [if_pos hnone] at hstep
    rw [← Option.some.inj hstep]
    refine ⟨hswapped, fun a ha b hb hcrossed => ?_⟩
    obtain hlt | rfl := Nat.lt_succ_iff_lt_or_eq.mp ha
    · exact hbefore a hlt b hb hcrossed
    · exact not_waits_of_unassigned hnone _ hcrossed.1
  · rw [if_neg hnone] at hstep
    exact swapPartners_some hswapped hi hbefore hstep

/-- The requests after the first turns of the loop over them. -/
structure Served (s : TeamBalancer) (n : ℕ) (s' : TeamBalancer) : Prop
    extends Rearranged s s' where
  counted : WellCounted s'
  full : ∀ k < n, ∀ team, (s'.member k).Waits team → s'.limit team ≤ s'.count team
  apart : ∀ a < s.teamMembers.length, ∀ b < s.teamMembers.length, ¬ s'.Crossed a b

theorem currentTeam_switchMemberTeam (hi : i < s.teamMembers.length) (team : ℕ) :
    ((s.switchMemberTeam i team).member i).currentTeam = team := by
  have hmember : (s.switchMemberTeam i team).member i = _ := member_set hi i
  rw [hmember, if_pos rfl]

theorem moveIfNotFull_kept (hi : i < s.teamMembers.length) (k : ℕ) :
    KeptOrServed s (s.moveIfNotFull i) k := by
  rw [KeptOrServed, moveIfNotFull]
  split
  · rw [member_notifyTeamAssigment]
    have hk : (s.switchMemberTeam i (s.member i).requestedTeam).member k = _ := member_set hi k
    rw [hk]
    by_cases hki : k = i
    · rw [if_pos hki]
      exact .inr (if_pos rfl)
    · rw [if_neg hki]
      exact .inl rfl
  · exact .inl rfl

theorem count_le_moveIfNotFull (hs : WellCounted s) (hi : i < s.teamMembers.length) {team : ℕ}
    (hteam : team < s.teamLimits.length)
    (hstays : s.MovesAt i → (s.member i).currentTeam ≠ team) :
    s.count team ≤ (s.moveIfNotFull i).count team := by
  have hmoved := counted_moveIfNotFull hs hi
  rw [hs.counts team hteam, hmoved.1.counts team (hmoved.2.teamLimits ▸ hteam), moveIfNotFull]
  split
  · next hmove =>
    rw [membersOn_notifyTeamAssigment]
    apply membersOn_le_switchMemberTeam hi
    rintro rfl
    by_contra hleaves
    exact hstays ⟨⟨rfl, hmove.1, Ne.symm hleaves⟩, hmove.2⟩ rfl
  · exact Nat.le_refl _

theorem full_moveIfNotFull (hi : i < s.teamMembers.length) {team : ℕ}
    (hwaits : (s.member i).Waits team) (hsame : (s.moveIfNotFull i).member i = s.member i) :
    s.limit team ≤ (s.moveIfNotFull i).count team := by
  rw [moveIfNotFull] at hsame ⊢
  by_cases hmove : (s.member i).requestedTeam ≠ unassignedTeamId ∧
      s.count (s.member i).requestedTeam < s.limit (s.member i).requestedTeam
  · rw [if_pos hmove, member_notifyTeamAssigment] at hsame
    have hcurrent := congrArg TeamMember.currentTeam hsame
    rw [currentTeam_switchMemberTeam hi] at hcurrent
    exact absurd (hcurrent.symm.trans hwaits.1) hwaits.2.2
  · rw [if_neg hmove]
    obtain ⟨rfl, hne, -⟩ := hwaits
    exact Nat.not_lt.mp fun hroom => hmove ⟨hne, hroom⟩

theorem Served.next {n : ℕ} (h : Served s n s') (hn : n < s.teamMembers.length)
    (hunwanted : s'.LeavesUnwanted n) : Served s (n + 1) (s'.moveIfNotFull n) := by
  have hn' : n < s'.teamMembers.length := h.length.symm ▸ hn
  have hmoved := counted_moveIfNotFull h.counted hn'
  have hkept := moveIfNotFull_kept hn'
  refine ⟨h.toRearranged.trans hmoved.2, hmoved.1, fun k hk team hwaits => ?_, fun a ha b hb => ?_⟩
  · obtain hsame | hserved := hkept k
    · rw [hsame] at hwaits
      have hk' : k < s'.teamMembers.length := by omega
      have hteam := waits_lt h.counted (member_mem hk') hwaits
      rw [hmoved.2.toSameSettings.limit]
      obtain hlt | rfl := Nat.lt_succ_iff_lt_or_eq.mp hk
      · have hle := h.full k hlt team hwaits
        refine hle.trans (count_le_moveIfNotFull h.counted hn' hteam ?_)
        rintro hmoves rfl
        exact hunwanted hmoves k hlt hwaits
      · exact full_moveIfNotFull hn' hwaits hsame
    · exact absurd hwaits (not_waits_of_unassigned hserved team)
  · exact fun hcrossed => h.apart a ha b hb (hcrossed.of_kept (hkept a) (hkept b)).1

theorem Served.foldl (h : Served s 0 s') {n : ℕ} (hn : n ≤ s.teamMembers.length)
    (hunwanted : Transition.Along (fun s i => s.moveIfNotFull i) LeavesUnwanted s' (List.range n)) :
    Served s n ((List.range n).foldl (fun s i => s.moveIfNotFull i) s') := by
  induction n with
  | zero => exact h
  | succ n ih =>
    rw [List.range_succ, Transition.along_concat_iff] at hunwanted
    rw [List.range_succ, List.foldl_append]
    exact (ih (by omega) hunwanted.1).next hn hunwanted.2

theorem Served.settled (h : Served s s.teamMembers.length s') : Settled s' := by
  have hindex : ∀ m ∈ s'.teamMembers, ∃ k < s.teamMembers.length, s'.member k = m := by
    intro m hm
    obtain ⟨k, hk, rfl⟩ := List.getElem_of_mem hm
    exact ⟨k, h.length ▸ hk, member_eq hk⟩
  constructor
  · intro m hm team hwaits
    obtain ⟨k, hk, rfl⟩ := hindex m hm
    exact h.full k hk team hwaits
  · rintro m hm m' hm' hcrossed
    obtain ⟨a, ha, rfl⟩ := hindex m hm
    obtain ⟨b, hb, rfl⟩ := hindex m' hm'
    exact h.apart a ha b hb hcrossed

theorem served_of_unlocked (hs : WellCounted s) (hforce : s.forceTeamsToBeEven = false)
    (hlock : s.lockTeams = true) (hwakes : s.Wakes (.setLockTeams false))
    (hunlocked : setLockTeams randomMT fuel false s = some s') :
    Served { s with lockTeams := false } s.teamMembers.length s' := by
  rw [setLockTeams, hlock, if_neg Bool.false_ne_true, if_neg Bool.false_ne_true] at hunlocked
  obtain ⟨s₁, hswaps, hrest⟩ := Option.bind_eq_some_iff.mp hunlocked
  have hcounted : WellCounted { s with lockTeams := false } := hs.congr rfl rfl rfl
  obtain ⟨hswapped, hapart⟩ := processSwaps_some hcounted hswaps
  rw [hswapped.force.trans hforce, if_neg Bool.false_ne_true] at hrest
  have hfold := countedLoop_eq_foldl (fun (s : TeamBalancer) i => s.moveIfNotFull i)
    (Nat.zero_lt_succ 255) hrest
  have hunwanted := hwakes rfl hlock fuel s₁ hswaps
  have hstart : Served { s with lockTeams := false } 0 s₁ :=
    ⟨hswapped.toRearranged, hswapped.counted, fun k hlt => absurd hlt (Nat.not_lt_zero k), hapart⟩
  rw [hswapped.length] at hfold hunwanted
  rw [hfold]
  exact hstart.foldl (le_refl _) hunwanted

/-! ### Runs -/

/-- What holds of every state of a run. -/
structure Orderly (s : TeamBalancer) : Prop where
  counted : WellCounted s
  uneven : s.forceTeamsToBeEven = false
  settled : s.lockTeams = false → Settled s

theorem Orderly.next (h : Orderly s) (hcounted : WellCounted s') (hsame : SameSettings s s')
    (hsettled : s.lockTeams = false → Settled s → Settled s') : Orderly s' :=
  ⟨hcounted, hsame.force.trans h.uneven, fun hlock =>
    hsettled (hsame.lock ▸ hlock) (h.settled (hsame.lock ▸ hlock))⟩

theorem Orderly.setLockTeams (h : Orderly s) {lock : Bool} (hwakes : s.Wakes (.setLockTeams lock))
    (hlock : setLockTeams randomMT fuel lock s = some s') : Orderly s' := by
  by_cases hsame : lock = s.lockTeams
  · rw [TeamBalancer.setLockTeams, if_pos hsame] at hlock
    exact Option.some.inj hlock ▸ h
  · cases lock with
    | true =>
      rw [TeamBalancer.setLockTeams, if_neg hsame, if_pos rfl] at hlock
      rw [← Option.some.inj hlock]
      exact ⟨h.counted.congr rfl rfl rfl, h.uneven, fun hunlocked => by cases hunlocked⟩
    | false =>
      have hlocked : s.lockTeams = true := by simpa using Ne.symm hsame
      have hserved := served_of_unlocked h.counted h.uneven hlocked hwakes hlock
      exact ⟨hserved.counted, hserved.force.trans h.uneven, fun _ => hserved.settled⟩

theorem Orderly.perform (h : Orderly s) {op : Operation} (hwakes : s.Wakes op)
    (hperform : perform randomMT fuel s op = some s') : Orderly s' := by
  have hcounted := ((perform_yields randomMT h.counted op).post hperform).counted
  have hrefl := SameSettings.refl s
  cases op with
  | setForceEvenTeams force =>
    obtain rfl : force = false := hwakes
    have hsame : s' = { s with forceTeamsToBeEven := false } := by
      change setForceEvenTeams randomMT fuel false s = some s' at hperform
      rw [setForceEvenTeams, if_neg Bool.false_ne_true, ite_self] at hperform
      exact (Option.some.inj hperform).symm
    subst hsame
    exact ⟨hcounted, rfl, fun hlock => ⟨(h.settled hlock).full, (h.settled hlock).apart⟩⟩
  | setLockTeams lock => exact h.setLockTeams hwakes hperform
  | deleteMember memberId =>
    obtain rfl := Option.some.inj hperform
    refine h.next hcounted ?_ fun hlock hsettled => ?_
    · exact deleteMember_rule h.counted memberId hrefl fun _ _ _ hs' => hs'.toSameSettings
    · exact hsettled.deleteMember h.counted hlock hwakes
  | cancelTeamRequest guid memberId =>
    obtain rfl := Option.some.inj hperform
    exact h.next hcounted (becomes_onCancelTeamRequest h.counted guid memberId).toSameSettings
      fun _ hsettled => hsettled.onCancelTeamRequest h.counted guid memberId
  | requestAnyTeam guid memberId =>
    obtain rfl := Option.some.inj hperform
    refine h.next hcounted ?_ fun _ hsettled => hsettled.onRequestAnyTeam h.counted guid memberId
    exact onRequestAnyTeam_rule h.counted guid memberId hrefl fun _ _ hs' => hs'.toSameSettings
  | requestSpecificTeam guid memberId desiredTeam =>
    obtain rfl := Option.some.inj hperform
    refine h.next hcounted ?_ fun hlock hsettled =>
      hsettled.onRequestSpecificTeam h.counted h.uneven hlock hwakes
    exact onRequestSpecificTeam_rule h.counted guid memberId desiredTeam
      (fun _ hs' => hs'.toSameSettings) (fun _ _ _ _ hs' => hs'.toSameSettings)
      (fun _ _ _ _ _ hs' => hs'.toSameSettings) (fun _ _ _ hs' => hs'.toSameSettings)
      fun _ _ _ _ _ _ hs' => hs'.toSameSettings
  | closedConnection guid =>
    have hsame := (removeByGuid_kept h.counted False.elim False.elim).post
      hperform
    exact h.next hcounted hsame.2 fun hlock hsettled =>
      hsettled.removeByGuid h.counted hlock h.uneven hperform

/-- The runs whose operations leave no team that somebody waits for, unless to wake them. -/
def WakingRun (randomMT : ℕ → ℕ) : TeamBalancer → TeamBalancer → Prop :=
  Relation.ReflTransGen fun s s' => ∃ op, s.Wakes op ∧ Performs randomMT s op s'

theorem WakingRun.orderly (h : WakingRun randomMT s s') (hs : Orderly s) : Orderly s' := by
  induction h with
  | refl => exact hs
  | tail _ hstep ih =>
    obtain ⟨op, hwakes, fuel, hperform⟩ := hstep
    exact ih.perform hwakes hperform

/-- In every state that such a run reaches on an unlocked host, nobody waits for a team with room,
and no two wait for the team of each other. -/
theorem requests_settled (algorithm : DefaultAssigmentAlgorithm) {teamLimits : List ℕ}
    (hteams : teamLimits ≠ []) (hids : teamLimits.length ≤ unassignedTeamId)
    (hlimits : ∀ limit ∈ teamLimits, limit < 65536)
    (h : WakingRun randomMT (start algorithm teamLimits) s) (hlock : s.lockTeams = false) :
    (∀ m ∈ s.teamMembers, ∀ team, m.Waits team → ¬ s.count team < s.limit team) ∧
      ∀ m ∈ s.teamMembers, ∀ m' ∈ s.teamMembers,
        ¬ (m.Waits m'.currentTeam ∧ m'.Waits m.currentTeam) := by
  have hstart : Orderly (start algorithm teamLimits) := by
    refine ⟨wellCounted_start hteams hids hlimits, rfl, fun _ => ⟨fun m hm => ?_, fun m hm => ?_⟩⟩
    · cases hm
    · cases hm
  have hsettled := (h.orderly hstart).settled hlock
  exact ⟨fun m hm team hwaits => Nat.not_lt.mpr (hsettled.full m hm team hwaits),
    hsettled.apart⟩

theorem wakingRun_joined : WakingRun id (start .smallestTeam [4, 4])
    (onRequestSpecificTeam 1 7 1 (onRequestAnyTeam 1 7 (start .smallestTeam [4, 4]))) := by
  refine (Relation.ReflTransGen.single ⟨.requestAnyTeam 1 7, trivial, 0, rfl⟩).tail
    ⟨.requestSpecificTeam 1 7 1, fun _ i hi _ => ?_, 0, rfl⟩
  obtain rfl : i = 0 := Nat.lt_one_iff.mp (getMemberIndex_lt hi)
  rintro ⟨m, hm, hwaits⟩
  obtain rfl := List.mem_singleton.mp hm
  exact hwaits.2.2 rfl

/-- A member joins a team, and leaves for another one while nobody waits for the first. -/
theorem requests_settled_once :
    (∀ m ∈ (onRequestSpecificTeam 1 7 1 (onRequestAnyTeam 1 7
        (start .smallestTeam [4, 4]))).teamMembers, ∀ team, m.Waits team →
      ¬ (onRequestSpecificTeam 1 7 1 (onRequestAnyTeam 1 7
          (start .smallestTeam [4, 4]))).count team <
        (onRequestSpecificTeam 1 7 1 (onRequestAnyTeam 1 7
          (start .smallestTeam [4, 4]))).limit team) ∧
    ∀ m ∈ (onRequestSpecificTeam 1 7 1 (onRequestAnyTeam 1 7
        (start .smallestTeam [4, 4]))).teamMembers,
      ∀ m' ∈ (onRequestSpecificTeam 1 7 1 (onRequestAnyTeam 1 7
          (start .smallestTeam [4, 4]))).teamMembers,
        ¬ (m.Waits m'.currentTeam ∧ m'.Waits m.currentTeam) :=
  requests_settled .smallestTeam (by decide) (by decide) (by decide) wakingRun_joined rfl

/-- Two teams of one member each. The second member waits for the team of the first, which is
deleted. -/
def afterDeletion : TeamBalancer :=
  deleteMember 1 (onRequestSpecificTeam 2 2 0 (onRequestSpecificTeam 2 2 1
    (onRequestSpecificTeam 1 1 0 (start .smallestTeam [1, 1]))))

theorem reaches_afterDeletion : Reaches id (start .smallestTeam [1, 1]) afterDeletion :=
  (((Relation.ReflTransGen.single ⟨.requestSpecificTeam 1 1 0, 0, rfl⟩).tail
    ⟨.requestSpecificTeam 2 2 1, 0, rfl⟩).tail ⟨.requestSpecificTeam 2 2 0, 0, rfl⟩).tail
      ⟨.deleteMember 1, 0, rfl⟩

theorem request_waits_for_room :
    ∃ s, Reaches id (start .smallestTeam [1, 1]) s ∧ s.forceTeamsToBeEven = false ∧
      s.lockTeams = false ∧ ∃ m ∈ s.teamMembers, m.Waits 0 ∧ s.count 0 < s.limit 0 := by
  refine ⟨afterDeletion, reaches_afterDeletion, rfl, rfl, ⟨2, 2, 1, 0⟩, ?_, ?_, ?_⟩
  · decide
  · exact ⟨rfl, by decide, by decide⟩
  · decide

end TeamBalancer

end SLikeNet
