import SLikeNet.TeamOperations
import Mathlib.Logic.Relation

/-! On a host with at most 255 members every operation ends, and the counts of the teams are those
of their members and within the limits. With more members than that the loops whose counter is a
`TeamId` do not end. -/

namespace SLikeNet

open FuelledLoop EvenCounts

namespace TeamBalancer

variable {randomMT : ℕ → ℕ} {enough : Prop} {fuel : ℕ}

theorem evenTeams_counted {s : TeamBalancer} (h : WellCounted s)
    (hfuel : enough → s.teamMembers.length < fuel) :
    Yields enough (fun s' => WellCounted s' ∧ Rearranged s s') (evenTeams randomMT fuel s) := by
  have heven := evenTeams_yields randomMT (fun _ _ => True) h hfuel
    (fun _ _ _ _ _ _ _ _ _ _ _ => trivial) (fun _ _ _ _ _ => trivial) trivial
  exact heven.mono fun s' hs' => ⟨hs'.1, hs'.2.1⟩

/-- The counts are the same after the swaps of `SetLockTeams`. -/
structure Swapped (s s' : TeamBalancer) : Prop extends Rearranged s s' where
  counted : WellCounted s'
  membersOn : s'.membersOn = s.membersOn

theorem swapped_swapPair {s s' : TeamBalancer} (h : Swapped s s') {i j : ℕ}
    (hi : i < s.teamMembers.length) (hj : j < s.teamMembers.length) :
    Swapped s (s'.swapPair i j) := by
  rw [← h.length] at hi hj
  rw [swapPair]
  by_cases hpair : (s'.member j).requestedTeam = (s'.member i).currentTeam ∧
      (s'.member i).requestedTeam = (s'.member j).currentTeam
  · rw [if_pos hpair]
    have hswap := rearranged_swapTeamMembersByRequest hi hj
    refine ⟨(h.toRearranged.trans hswap).trans ((rearranged_notifyTeamAssigment _ i).trans
      (rearranged_notifyTeamAssigment _ j)), ?_, ?_⟩
    · exact ((h.counted.swapTeamMembersByRequest hi hj).notifyTeamAssigment i).notifyTeamAssigment j
    · funext team
      rw [membersOn_notifyTeamAssigment, membersOn_notifyTeamAssigment,
        membersOn_swapTeamMembersByRequest hi hj, h.membersOn]
  · rw [if_neg hpair]
    exact h

theorem processSwaps_yields {s : TeamBalancer} (h : WellCounted s)
    (hfuel : enough → s.teamMembers.length < fuel)
    (hfew : enough → s.teamMembers.length < 256) :
    Yields enough (Swapped s) (processSwaps fuel s) := by
  rw [processSwaps]
  apply countedLoop_yields (fun _ => Swapped s) hfew
  · intro i s' hi hs'
    by_cases hnone : (s'.member i).requestedTeam = unassignedTeamId
    · rw [if_pos hnone]
      exact hs'
    · rw [if_neg hnone]
      apply countedLoop_yields (fun _ => Swapped s) hfew
      · exact fun j s'' hj hs'' => swapped_swapPair hs'' hi hj
      · exact Nat.mod_lt _ (by omega)
      · have hle := Nat.mod_le (i + 1) 256
        omega
      · exact hs'
      · intro he
        have hlt := hfuel he
        omega
  · omega
  · omega
  · exact ⟨Rearranged.refl s, h, rfl⟩
  · exact hfuel

theorem counted_moveIfNotFull {s : TeamBalancer} (h : WellCounted s) {i : ℕ}
    (hi : i < s.teamMembers.length) :
    WellCounted (s.moveIfNotFull i) ∧ Rearranged s (s.moveIfNotFull i) := by
  rw [moveIfNotFull]
  by_cases hmove : (s.member i).requestedTeam ≠ unassignedTeamId ∧
      s.count (s.member i).requestedTeam < s.limit (s.member i).requestedTeam
  · rw [if_pos hmove]
    have hteam : (s.member i).requestedTeam < s.teamLimits.length :=
      (h.valid _ (member_mem hi)).requested.resolve_right hmove.1
    exact ⟨(h.switchMemberTeam hi hteam (Or.inr hmove.2)).notifyTeamAssigment i,
      (rearranged_switchMemberTeam hi _).trans (rearranged_notifyTeamAssigment _ i)⟩
  · rw [if_neg hmove]
    exact ⟨h, Rearranged.refl s⟩

theorem processRequests_yields {s : TeamBalancer} (h : WellCounted s)
    (hfuel : enough → s.teamMembers.length < fuel)
    (hfew : enough → s.teamMembers.length < 256) :
    Yields enough (fun s' => WellCounted s' ∧ Rearranged s s') (processRequests fuel s) := by
  rw [processRequests]
  apply countedLoop_yields (fun _ s' => WellCounted s' ∧ Rearranged s s') hfew
  · intro i s' hi hs'
    have hmoved := counted_moveIfNotFull hs'.1 (hs'.2.length.symm ▸ hi)
    exact ⟨hmoved.1, hs'.2.trans hmoved.2⟩
  · omega
  · omega
  · exact ⟨h, Rearranged.refl s⟩
  · exact hfuel

/-- The counts are right, and the limits are the same. -/
structure Kept (s s' : TeamBalancer) : Prop where
  counted : WellCounted s'
  teamLimits : s'.teamLimits = s.teamLimits

theorem Becomes.kept {s s' : TeamBalancer} {counts : ℕ → ℕ} (h : Becomes s counts s') :
    Kept s s' := ⟨h.counted, h.teamLimits⟩

theorem setForceEvenTeams_yields {s : TeamBalancer} (h : WellCounted s) (force : Bool)
    (hfuel : enough → s.teamMembers.length < fuel) :
    Yields enough (Kept s) (setForceEvenTeams randomMT fuel force s) := by
  have hforced : WellCounted { s with forceTeamsToBeEven := force } := h.congr rfl rfl rfl
  rw [setForceEvenTeams]
  by_cases hlock : s.lockTeams = true
  · rw [if_pos hlock]
    exact ⟨hforced, rfl⟩
  · rw [if_neg hlock]
    by_cases hforce : force = true
    · rw [if_pos hforce]
      exact (evenTeams_counted hforced hfuel).mono fun s' hs' => ⟨hs'.1, hs'.2.teamLimits⟩
    · rw [if_neg hforce]
      exact ⟨hforced, rfl⟩

theorem setLockTeams_yields {s : TeamBalancer} (h : WellCounted s) (lock : Bool)
    (hfuel : enough → s.teamMembers.length < fuel)
    (hfew : enough → lock = false → s.lockTeams = true → s.teamMembers.length < 256) :
    Yields enough (Kept s) (setLockTeams randomMT fuel lock s) := by
  have hlocked : WellCounted { s with lockTeams := lock } := h.congr rfl rfl rfl
  rw [setLockTeams]
  by_cases hsame : lock = s.lockTeams
  · rw [if_pos hsame]
    exact ⟨h, rfl⟩
  · rw [if_neg hsame]
    cases lock with
    | true => exact ⟨hlocked, rfl⟩
    | false =>
      have hfew' : enough → s.teamMembers.length < 256 := by
        intro he
        exact hfew he rfl (by simpa using hsame)
      rw [if_neg (by simp)]
      apply (processSwaps_yields hlocked hfuel hfew').bind
      intro s' hs'
      have hlength : s'.teamMembers.length = s.teamMembers.length := hs'.length
      rw [← hlength] at hfuel hfew'
      by_cases hforce : s'.forceTeamsToBeEven = true
      · rw [if_pos hforce]
        exact (evenTeams_counted hs'.counted hfuel).mono fun s'' hs'' =>
          ⟨hs''.1, hs''.2.teamLimits.trans hs'.teamLimits⟩
      · rw [if_neg hforce]
        exact (processRequests_yields hs'.counted hfuel hfew').mono fun s'' hs'' =>
          ⟨hs''.1, hs''.2.teamLimits.trans hs'.teamLimits⟩

/-! ### A connection is lost -/

theorem afterDrop_yields {s : TeamBalancer} (h : WellCounted s) {droppedTeam : ℕ}
    (hteam : droppedTeam < s.teamLimits.length) (hfuel : enough → s.teamMembers.length < fuel)
    (hfew : enough → s.lockTeams = false → s.forceTeamsToBeEven = false →
      s.count droppedTeam + 1 = s.limit droppedTeam → s.teamMembers.length < 256) :
    Yields enough
      (fun s' => (WellCounted s' ∧ Rearranged s s') ∧
        (s.forceTeamsToBeEven = false → s.count droppedTeam + 1 ≠ s.limit droppedTeam → s' = s))
      (afterDrop randomMT fuel droppedTeam s) := by
  rw [afterDrop]
  by_cases hlock : s.lockTeams = true
  · rw [if_pos hlock]
    exact ⟨⟨h, Rearranged.refl s⟩, fun _ _ => rfl⟩
  · rw [if_neg hlock]
    by_cases hforce : s.forceTeamsToBeEven = true
    · rw [if_pos hforce]
      refine (evenTeams_counted h hfuel).mono fun s' hs' => ⟨hs', fun hnot => ?_⟩
      rw [hforce] at hnot
      cases hnot
    · rw [if_neg hforce]
      by_cases hfull : s.count droppedTeam + 1 = s.limit droppedTeam
      · rw [if_pos hfull]
        have hfew' : enough → s.teamMembers.length < 256 := by
          intro he
          exact hfew he (by simpa using hlock) (by simpa using hforce) hfull
        exact (moveMemberThatWantsToJoinTeam_yields h hteam (by omega) hfuel hfew').mono
          fun s' hs' => ⟨hs', fun _ hnot => absurd hfull hnot⟩
      · rw [if_neg hfull]
        exact ⟨⟨h, Rearranged.refl s⟩, fun _ _ => rfl⟩

/-- The rule of `RemoveByGuid`: what holds of the state and the index, and is kept when a member is
passed over and when one is removed. -/
theorem removeByGuid_yields (inv : TeamBalancer → ℕ → Prop) {s : TeamBalancer} {guid : ℕ}
    (hfuel : enough → s.teamMembers.length < fuel)
    (hskip : ∀ s' i, inv s' i → i < s'.teamMembers.length → (s'.member i).memberGuid ≠ guid →
      inv s' (i + 1))
    (hdrop : ∀ s' i, inv s' i → i < s'.teamMembers.length →
      s'.teamMembers.length ≤ s.teamMembers.length → (s'.member i).memberGuid = guid →
        Yields enough (fun s'' => inv s'' i ∧ s''.teamMembers.length < s'.teamMembers.length)
          (afterDrop randomMT fuel (s'.member i).currentTeam (s'.removeTeamMember i)))
    (hstart : inv s 0) :
    Yields enough (fun s' => ∃ i, inv s' i ∧ s'.teamMembers.length ≤ i)
      (removeByGuid randomMT fuel guid s) := by
  rw [removeByGuid]
  refine Yields.map (whileLoop_yields
    (fun r => inv r.1 r.2 ∧ r.1.teamMembers.length ≤ s.teamMembers.length)
    (fun r => r.1.teamMembers.length - r.2) ?_ fuel (s, 0) ⟨hstart, le_refl _⟩ hfuel) ?_
  · rintro ⟨s', i⟩ ⟨hinv, hle⟩ hlt
    have hi : i < s'.teamMembers.length := decide_eq_true_iff.mp hlt
    dsimp only at hle
    rw [dropAt]
    by_cases hguid : (s'.member i).memberGuid = guid
    · rw [if_pos hguid]
      refine (hdrop s' i hinv hi hle hguid).map fun s'' hs'' => ⟨⟨hs''.1, ?_⟩, ?_⟩
      · dsimp only
        omega
      · dsimp only
        omega
    · rw [if_neg hguid]
      refine ⟨⟨hskip s' i hinv hi hguid, hle⟩, ?_⟩
      dsimp only
      omega
  · rintro ⟨s', i⟩ ⟨⟨hinv, -⟩, hdone⟩
    exact ⟨i, hinv, by simpa using hdone⟩

/-- When a member with this guid leaves a full team, at most 255 members are left. -/
def DropFits (s : TeamBalancer) (guid : ℕ) : Prop :=
  s.lockTeams = false → s.forceTeamsToBeEven = false →
    s.teamMembers.length ≤ 256 ∨
      ∀ m ∈ s.teamMembers, m.memberGuid = guid → s.count m.currentTeam < s.limit m.currentTeam

theorem DropFits.removeTeamMember {s : TeamBalancer} {guid i : ℕ} (h : WellCounted s)
    (hfits : DropFits s guid) (hi : i < s.teamMembers.length) :
    DropFits (s.removeTeamMember i) guid := by
  intro hlock hforce
  have hlength := length_removeTeamMember hi
  rcases hfits hlock hforce with hfew | hroom
  · exact Or.inl (by omega)
  · refine Or.inr fun m hm hguid => ?_
    have hperm := removeAtIndexFast_perm hi
    have hm' : m ∈ s.teamMembers :=
      (List.eraseIdx_sublist s.teamMembers i).subset (hperm.mem_iff.mp hm)
    have hteam := (h.valid m hm').current
    have hless := hroom m hm' hguid
    have hremoved := becomes_removeTeamMember h hi
    have hcount := hremoved.counted.counts _ hteam
    have hlimit : (s.removeTeamMember i).limit m.currentTeam = s.limit m.currentTeam := rfl
    rw [hremoved.membersOn, less] at hcount
    rw [h.counts _ hteam] at hless
    rw [hlimit, hcount]
    split <;> omega

theorem removeByGuid_kept {s : TeamBalancer} (h : WellCounted s) {guid : ℕ}
    (hfuel : enough → s.teamMembers.length < fuel) (hfits : enough → DropFits s guid) :
    Yields enough (fun s' => WellCounted s' ∧ SameSettings s s')
      (removeByGuid randomMT fuel guid s) := by
  refine Yields.mono (removeByGuid_yields
    (fun s' _ => (WellCounted s' ∧ SameSettings s s') ∧ (enough → DropFits s' guid)) hfuel ?_ ?_
      ⟨⟨h, SameSettings.refl s⟩, hfits⟩) ?_
  · exact fun _ _ hinv _ _ => hinv
  · rintro s' i ⟨⟨hs', hsettings⟩, hfits'⟩ hi hle hguid
    have hlength := length_removeTeamMember hi
    have hcounted := hs'.removeTeamMember hi
    have hteam := hs'.current_member hi
    have hfew : enough → (s'.removeTeamMember i).lockTeams = false →
        (s'.removeTeamMember i).forceTeamsToBeEven = false →
          (s'.removeTeamMember i).count (s'.member i).currentTeam + 1 =
            (s'.removeTeamMember i).limit (s'.member i).currentTeam →
              (s'.removeTeamMember i).teamMembers.length < 256 := by
      intro he hlock hforce hfull
      rcases hfits' he hlock hforce with hfew | hroom
      · omega
      · have hless := hroom _ (member_mem hi) hguid
        have hcount := hcounted.counts _ hteam
        rw [(becomes_removeTeamMember hs' hi).membersOn, less, if_pos rfl,
          ← hs'.counts _ hteam] at hcount
        have hlimit : (s'.removeTeamMember i).limit (s'.member i).currentTeam =
            s'.limit (s'.member i).currentTeam := rfl
        have hpos := membersOn_pos hi
        rw [← hs'.counts _ hteam] at hpos
        omega
    refine (afterDrop_yields hcounted hteam ?_ hfew).mono fun s'' hs'' => ?_
    · intro he
      have hlt := hfuel he
      omega
    · have hlength' := hs''.1.2.length
      have hremoved : SameSettings s' (s'.removeTeamMember i) := ⟨rfl, rfl, rfl, rfl⟩
      have hsettings' := (hsettings.trans hremoved).trans hs''.1.2.toSameSettings
      refine ⟨⟨⟨hs''.1.1, hsettings'⟩, fun he => ?_⟩, by omega⟩
      have hfits'' := (hfits' he).removeTeamMember hs' hi
      intro hlock hforce
      rw [hs''.1.2.lock] at hlock
      rw [hs''.1.2.force] at hforce
      by_cases hfull : (s'.removeTeamMember i).count (s'.member i).currentTeam + 1 =
          (s'.removeTeamMember i).limit (s'.member i).currentTeam
      · have hlt := hfew he hlock hforce hfull
        exact Or.inl (by omega)
      · rw [hs''.2 hforce hfull]
        exact hfits'' hlock hforce
  · rintro s' ⟨i, hinv, -⟩
    exact hinv.1

/-! ### Every operation -/

/-- The members that the loops with a `TeamId` counter go through are at most 255. -/
def Fits (s : TeamBalancer) : Operation → Prop
  | .setLockTeams lock => lock = false → s.lockTeams = true → s.teamMembers.length ≤ 255
  | .closedConnection guid => s.DropFits guid
  | _ => True

theorem perform_yields (randomMT : ℕ → ℕ) {s : TeamBalancer} (h : WellCounted s) (op : Operation) :
    Yields (s.teamMembers.length < fuel ∧ s.Fits op) (Kept s) (perform randomMT fuel s op) := by
  have hrefl := becomes_refl h
  cases op with
  | setForceEvenTeams force => exact setForceEvenTeams_yields h force fun he => he.1
  | setLockTeams lock =>
    refine setLockTeams_yields h lock (fun he => he.1) fun he hunlock hlock => ?_
    have hle := he.2 hunlock hlock
    omega
  | deleteMember memberId =>
    exact deleteMember_rule h memberId hrefl.kept fun _ _ _ hs' => hs'.kept
  | cancelTeamRequest guid memberId => exact (becomes_onCancelTeamRequest h guid memberId).kept
  | requestAnyTeam guid memberId =>
    exact onRequestAnyTeam_rule h guid memberId hrefl.kept fun _ _ hs' => hs'.kept
  | requestSpecificTeam guid memberId desiredTeam =>
    exact onRequestSpecificTeam_rule h guid memberId desiredTeam (fun _ hs' => hs'.kept)
      (fun _ _ _ _ hs' => hs'.kept) (fun _ _ _ _ _ hs' => hs'.kept) (fun _ _ _ hs' => hs'.kept)
      fun _ _ _ _ _ _ hs' => hs'.kept
  | closedConnection guid =>
    exact (removeByGuid_kept h (fun he => he.1) fun he => he.2).mono fun s' hs' =>
      ⟨hs'.1, hs'.2.teamLimits⟩

theorem wellCounted_start {algorithm : DefaultAssigmentAlgorithm} {teamLimits : List ℕ}
    (hteams : teamLimits ≠ []) (hids : teamLimits.length ≤ unassignedTeamId)
    (hlimits : ∀ limit ∈ teamLimits, limit < 65536) : WellCounted (start algorithm teamLimits) := by
  have hcount : ∀ team, (start algorithm teamLimits).count team = 0 := by
    intro team
    rw [count, start, List.getD_eq_getElem?_getD, List.getElem?_replicate]
    split <;> rfl
  constructor
  · exact hteams
  · exact hids
  · intro team
    rw [limit, start, List.getD_eq_getElem?_getD]
    cases hget : teamLimits[team]? with
    | none => exact Nat.zero_lt_succ _
    | some l => exact hlimits l (List.mem_of_getElem? hget)
  · exact List.length_replicate
  · intro team _
    rw [hcount]
    rfl
  · intro team _
    rw [hcount]
    exact Nat.zero_le _
  · intro m hm
    cases hm
  · exact List.nodup_nil

/-- The runs of the host. -/
def Reaches (randomMT : ℕ → ℕ) : TeamBalancer → TeamBalancer → Prop :=
  Relation.ReflTransGen fun s s' => ∃ op, Performs randomMT s op s'

theorem Reaches.kept {s s' : TeamBalancer} (h : Reaches randomMT s s') (hs : WellCounted s) :
    Kept s s' := by
  induction h with
  | refl => exact ⟨hs, rfl⟩
  | tail _ hstep ih =>
    obtain ⟨op, fuel, hperform⟩ := hstep
    have hkept := (perform_yields randomMT ih.counted op).post hperform
    exact ⟨hkept.counted, hkept.teamLimits.trans ih.teamLimits⟩

/-- In every state that a host reaches the counts are right and within the limits, and an operation
ends, with every member that it asks for, when the loops with a `TeamId` counter can. -/
theorem counts_match (algorithm : DefaultAssigmentAlgorithm) {teamLimits : List ℕ}
    (hteams : teamLimits ≠ []) (hids : teamLimits.length ≤ unassignedTeamId)
    (hlimits : ∀ limit ∈ teamLimits, limit < 65536) {s : TeamBalancer}
    (h : Reaches randomMT (start algorithm teamLimits) s) :
    (∀ team < teamLimits.length,
      s.count team = s.membersOn team ∧ s.count team ≤ teamLimits.getD team 0) ∧
    s.keys.Nodup ∧
    (∀ m ∈ s.teamMembers, m.currentTeam < teamLimits.length) ∧
    ∀ op, s.Fits op → ∃ s', Performs randomMT s op s' := by
  have hkept := h.kept (wellCounted_start hteams hids hlimits)
  have hcounted := hkept.counted
  have hsame : s.teamLimits = teamLimits := hkept.teamLimits
  refine ⟨?_, hcounted.distinct, ?_, ?_⟩
  · intro team hteam
    rw [← hsame] at hteam ⊢
    exact ⟨hcounted.counts team hteam, hcounted.within team hteam⟩
  · intro m hm
    rw [← hsame]
    exact (hcounted.valid m hm).current
  · intro op hfits
    obtain ⟨s', hs', -⟩ := (perform_yields randomMT hcounted op).exists
      ⟨Nat.lt_succ_self s.teamMembers.length, hfits⟩
    exact ⟨s', _, hs'⟩

/-- A host with one team, which a member has joined. -/
theorem counts_match_joined :
    (∀ team < [4].length, (onRequestAnyTeam 1 7 (start .smallestTeam [4])).count team =
        (onRequestAnyTeam 1 7 (start .smallestTeam [4])).membersOn team ∧
      (onRequestAnyTeam 1 7 (start .smallestTeam [4])).count team ≤ [4].getD team 0) ∧
    (onRequestAnyTeam 1 7 (start .smallestTeam [4])).keys.Nodup ∧
    (∀ m ∈ (onRequestAnyTeam 1 7 (start .smallestTeam [4])).teamMembers,
      m.currentTeam < [4].length) ∧
    ∀ op, (onRequestAnyTeam 1 7 (start .smallestTeam [4])).Fits op →
      ∃ s', Performs id (onRequestAnyTeam 1 7 (start .smallestTeam [4])) op s' :=
  counts_match .smallestTeam (by decide) (by decide) (by decide)
    (Relation.ReflTransGen.single ⟨.requestAnyTeam 1 7, 0, rfl⟩)

/-! ### A host with 257 members -/

/-- One team, with one member of one system and `n` members of another. -/
structure Crowd (n : ℕ) (s : TeamBalancer) : Prop where
  reached : Reaches id (start .fillInOrder [257]) s
  algorithm : s.defaultAssigmentAlgorithm = .fillInOrder
  force : s.forceTeamsToBeEven = false
  lock : s.lockTeams = false
  teamLimits : s.teamLimits = [257]
  keys : s.keys = (1, 0) :: (List.range n).map fun i => (2, i)

theorem Crowd.counted {n : ℕ} {s : TeamBalancer} (h : Crowd n s) : WellCounted s :=
  (h.reached.kept (wellCounted_start (by decide) (by decide) (by decide))).counted

theorem Crowd.length {n : ℕ} {s : TeamBalancer} (h : Crowd n s) :
    s.teamMembers.length = n + 1 := by
  rw [← length_keys, h.keys]
  simp

theorem Crowd.count {n : ℕ} {s : TeamBalancer} (h : Crowd n s) : s.count 0 = n + 1 := by
  have hsum := sum_membersOn h.counted
  rw [h.teamLimits, List.length_singleton, Finset.sum_range_one, h.length] at hsum
  rw [h.counted.counts 0 (by rw [h.teamLimits]; decide), hsum]

theorem Crowd.limit {n : ℕ} {s : TeamBalancer} (h : Crowd n s) : s.limit 0 = 257 := by
  rw [TeamBalancer.limit, h.teamLimits]
  rfl

theorem keys_addTeamMember {s : TeamBalancer} {tm : TeamMember}
    (htm : tm.currentTeam < s.teamLimits.length) :
    (s.addTeamMember tm).keys = s.keys ++ [(tm.memberGuid, tm.memberId)] := by
  rw [addTeamMember, if_neg (by omega)]
  exact List.map_append

theorem Crowd.join {n : ℕ} {s : TeamBalancer} (h : Crowd n s) (hn : n < 256) :
    Crowd (n + 1) (onRequestAnyTeam 2 n s) := by
  have hdefault : s.getNextDefaultTeam = 0 := by
    have hroom : s.count 0 < s.limit 0 := by
      rw [h.count, h.limit]
      omega
    rw [getNextDefaultTeam, h.algorithm]
    simp [getFirstNonFullTeam, h.counted.lengths, h.teamLimits, List.range_succ, hroom]
  have hindex : s.getMemberIndex n 2 = none := by
    rw [getMemberIndex, List.findIdx?_eq_none_iff]
    intro m hm
    have hkey : (m.memberGuid, m.memberId) ∈ s.keys := List.mem_map_of_mem hm
    rw [h.keys] at hkey
    by_contra hsame
    simp only [Bool.not_eq_false, Bool.and_eq_true, beq_iff_eq] at hsame
    rw [hsame.1, hsame.2] at hkey
    simp at hkey
  have hjoined : onRequestAnyTeam 2 n s =
      (s.addTeamMember ⟨2, n, 0, unassignedTeamId⟩).notifyTeamAssigment s.teamMembers.length := by
    rw [onRequestAnyTeam, hindex]
    dsimp only
    rw [hdefault]
    rfl
  have hlt : 0 < s.teamLimits.length := by
    rw [h.teamLimits]
    decide
  have hkeys : (onRequestAnyTeam 2 n s).keys = s.keys ++ [(2, n)] := by
    rw [hjoined, (rearranged_notifyTeamAssigment _ _).keys, keys_addTeamMember hlt]
  have hsettings : SameSettings s (onRequestAnyTeam 2 n s) :=
    onRequestAnyTeam_rule h.counted 2 n (SameSettings.refl s) fun _ _ hs' => hs'.toSameSettings
  refine ⟨h.reached.tail ⟨.requestAnyTeam 2 n, 0, rfl⟩, hsettings.algorithm.trans h.algorithm,
    hsettings.force.trans h.force, hsettings.lock.trans h.lock,
    hsettings.teamLimits.trans h.teamLimits, ?_⟩
  rw [hkeys, h.keys, List.range_succ, List.map_append]
  rfl

theorem exists_crowd {n : ℕ} (hn : n ≤ 256) : ∃ s, Crowd n s := by
  induction n with
  | zero =>
    exact ⟨onRequestAnyTeam 1 0 (start .fillInOrder [257]),
      Relation.ReflTransGen.single ⟨.requestAnyTeam 1 0, 0, rfl⟩, rfl, rfl, rfl, rfl, rfl⟩
  | succ n ih =>
    obtain ⟨s, hs⟩ := ih (by omega)
    exact ⟨_, hs.join (by omega)⟩

theorem moveMemberThatWantsToJoinTeam_none {s : TeamBalancer} (hmany : 256 ≤ s.teamMembers.length)
    (fuel team : ℕ) : s.moveMemberThatWantsToJoinTeam randomMT fuel team = none := by
  rw [moveMemberThatWantsToJoinTeam, moveMemberThatWantsToJoinTeamInternal, membersThatWantToJoin,
    countedLoop_none hmany fuel 0 [] (by omega)]
  rfl

/-- A member of a full team leaves, 256 are left, and the host looks for ever for one of them that
wants to join the team. -/
theorem closedConnection_crowd_never_ends :
    ∃ s, Reaches id (start .fillInOrder [257]) s ∧
      ¬∃ s', Performs id s (.closedConnection 1) s' := by
  obtain ⟨s, hs⟩ := exists_crowd (le_refl 256)
  refine ⟨s, hs.reached, ?_⟩
  rintro ⟨s', fuel, hperform⟩
  have hlength := hs.length
  have hi : 0 < s.teamMembers.length := by omega
  have hguid : (s.member 0).memberGuid = 1 := by
    have hfirst : s.keys[0]? = some (1, 0) := by
      rw [hs.keys]
      rfl
    rw [TeamBalancer.keys, List.getElem?_map, List.getElem?_eq_getElem hi, ← member_eq hi] at hfirst
    exact (Prod.mk.inj (Option.some.inj hfirst)).1
  have hteam : (s.member 0).currentTeam = 0 := by
    have hlt := hs.counted.current_member hi
    rw [hs.teamLimits, List.length_singleton] at hlt
    omega
  have hfull : (s.removeTeamMember 0).count 0 + 1 = (s.removeTeamMember 0).limit 0 := by
    have hremoved := becomes_removeTeamMember hs.counted hi
    have hcount := hremoved.counted.counts 0 (by rw [hremoved.teamLimits, hs.teamLimits]; decide)
    rw [hremoved.membersOn, less, hteam, if_pos rfl,
      ← hs.counted.counts 0 (by rw [hs.teamLimits]; decide), hs.count] at hcount
    rw [hcount, hremoved.limit, hs.limit]
  have hdrop : dropAt id fuel 1 (s, 0) = none := by
    have hmany : 256 ≤ (s.removeTeamMember 0).teamMembers.length := by
      have hremoved := length_removeTeamMember hi
      omega
    have hlock : (s.removeTeamMember 0).lockTeams = false := hs.lock
    have hforce : (s.removeTeamMember 0).forceTeamsToBeEven = false := hs.force
    rw [dropAt, if_pos hguid, hteam, afterDrop, hlock, hforce]
    simp only [Bool.false_eq_true, if_false]
    rw [if_pos hfull, moveMemberThatWantsToJoinTeam_none hmany]
    rfl
  have hnone : removeByGuid id fuel 1 s = none := by
    rw [removeByGuid]
    cases fuel with
    | zero => rfl
    | succ fuel =>
      rw [whileLoop, if_pos (by simpa using hi), hdrop]
      rfl
  have hsome : removeByGuid id fuel 1 s = some s' := hperform
  rw [hnone] at hsome
  cases hsome

end TeamBalancer

end SLikeNet
