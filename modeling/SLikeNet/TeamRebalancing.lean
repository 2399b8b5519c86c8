import SLikeNet.Library.EvenCounts
import SLikeNet.TeamCounts

/-! The loops of `EvenTeams` and `MoveMemberThatWantsToJoinTeam` end, and every member that they
ask for exists. -/

namespace SLikeNet

open FuelledLoop EvenCounts

namespace TeamBalancer

variable {randomMT : ℕ → ℕ} {enough : Prop} {fuel : ℕ}

theorem rearranged_countDraw (s : TeamBalancer) : Rearranged s s.countDraw :=
  ⟨⟨rfl, rfl, rfl, rfl⟩, rfl⟩

theorem choose_mem (randomMT : ℕ → ℕ) {s : TeamBalancer} {indices : List ℕ} (h : indices ≠ []) :
    ∃ i ∈ indices, s.choose randomMT indices = some i := by
  have hlt : randomMT s.drawn % indices.length < indices.length :=
    Nat.mod_lt _ (List.length_pos_iff.mpr h)
  exact ⟨indices[randomMT s.drawn % indices.length], List.getElem_mem hlt,
    List.getElem?_eq_getElem hlt⟩

theorem mem_swapIndices {s : TeamBalancer} {sources : List ℕ} {target i : ℕ} {preferred : Bool} :
    i ∈ s.swapIndices sources target preferred ↔
      i < s.teamMembers.length ∧ (s.member i).currentTeam ∈ sources ∧
        ((s.member i).requestedTeam == target) = preferred := by
  simp only [swapIndices, List.mem_flatMap, List.mem_filter, List.mem_range, Bool.and_eq_true,
    beq_iff_eq]
  constructor
  · rintro ⟨source, hsource, hi, hcurrent, hpreferred⟩
    exact ⟨hi, hcurrent ▸ hsource, hpreferred⟩
  · rintro ⟨hi, hsource, hpreferred⟩
    exact ⟨_, hsource, hi, rfl, hpreferred⟩

theorem getMemberIndexToSwitchTeams_eq (randomMT : ℕ → ℕ) {s : TeamBalancer} {sources : List ℕ}
    (target : ℕ) {i : ℕ}
    (hi : i < s.teamMembers.length) (hsource : (s.member i).currentTeam ∈ sources) :
    ∃ j < s.teamMembers.length, (s.member j).currentTeam ∈ sources ∧
      s.getMemberIndexToSwitchTeams randomMT sources target = some j := by
  rw [getMemberIndexToSwitchTeams]
  by_cases hpreferred : s.swapIndices sources target true = []
  · have hother : s.swapIndices sources target false ≠ [] := by
      have hmem : i ∈ s.swapIndices sources target false := by
        have hnot : i ∉ s.swapIndices sources target true := by simp [hpreferred]
        rw [mem_swapIndices] at hnot ⊢
        refine ⟨hi, hsource, ?_⟩
        by_contra hne
        exact hnot ⟨hi, hsource, by simpa using hne⟩
      exact List.ne_nil_of_mem hmem
    obtain ⟨j, hj, hchoose⟩ := choose_mem randomMT (s := s) hother
    rw [mem_swapIndices] at hj
    exact ⟨j, hj.1, hj.2.1, by rw [if_neg (by simpa using hpreferred), hchoose]⟩
  · obtain ⟨j, hj, hchoose⟩ := choose_mem randomMT (s := s) hpreferred
    rw [mem_swapIndices] at hj
    exact ⟨j, hj.1, hj.2.1, by rw [if_pos hpreferred, hchoose]⟩

theorem le_maxTeamMembers (s : TeamBalancer) : s.minTeamMembers ≤ s.maxTeamMembers := by
  rw [maxTeamMembers]
  split <;> omega

theorem maxTeamMembers_le (s : TeamBalancer) : s.maxTeamMembers ≤ s.minTeamMembers + 1 := by
  rw [maxTeamMembers]
  split <;> omega

theorem exists_overpopulated {s : TeamBalancer} (h : WellCounted s) {team : ℕ}
    (hteam : team < s.teamLimits.length) (hlt : s.membersOn team < s.minTeamMembers) :
    ∃ source < s.teamLimits.length, s.maxTeamMembers ≤ s.membersOn source := by
  by_contra hnone
  push Not at hnone
  have hmax := maxTeamMembers_le s
  have hsum : ∑ t ∈ Finset.range s.teamLimits.length, s.membersOn t <
      ∑ _t ∈ Finset.range s.teamLimits.length, s.minTeamMembers := by
    apply Finset.sum_lt_sum
    · intro t ht
      have hnot := hnone t (Finset.mem_range.mp ht)
      omega
    · exact ⟨team, Finset.mem_range.mpr hteam, hlt⟩
  rw [sum_membersOn h, Finset.sum_const, Finset.card_range, smul_eq_mul, minTeamMembers] at hsum
  have hle := Nat.mul_div_le s.teamMembers.length s.teamLimits.length
  omega

theorem Rearranged.minTeamMembers {s s' : TeamBalancer} (h : Rearranged s s') :
    s'.minTeamMembers = s.minTeamMembers := by
  rw [TeamBalancer.minTeamMembers, TeamBalancer.minTeamMembers, h.length, h.teamLimits]

theorem Rearranged.maxTeamMembers {s s' : TeamBalancer} (h : Rearranged s s') :
    s'.maxTeamMembers = s.maxTeamMembers := by
  rw [TeamBalancer.maxTeamMembers, TeamBalancer.maxTeamMembers, h.length, h.teamLimits,
    h.minTeamMembers]

theorem mem_getOverpopulatedTeams {s : TeamBalancer} (h : WellCounted s) {maxTeamSize team : ℕ} :
    team ∈ s.getOverpopulatedTeams maxTeamSize ↔
      team < s.teamLimits.length ∧ maxTeamSize ≤ s.membersOn team := by
  rw [getOverpopulatedTeams, List.mem_filter, List.mem_range, h.lengths, decide_eq_true_iff]
  constructor
  · rintro ⟨hlt, hle⟩
    exact ⟨hlt, h.counts team hlt ▸ hle⟩
  · rintro ⟨hlt, hle⟩
    exact ⟨hlt, (h.counts team hlt).symm ▸ hle⟩

theorem membersOn_moved {s : TeamBalancer} {i : ℕ} (hi : i < s.teamMembers.length) {target : ℕ}
    (hne : (s.member i).currentTeam ≠ target) :
    (s.switchMemberTeam i target).membersOn =
      moved s.membersOn (s.member i).currentTeam target := by
  funext team
  have hon := membersOn_switchMemberTeam hi target team
  rw [moved]
  by_cases hsource : team = (s.member i).currentTeam
  · rw [if_pos hsource]
    rw [if_pos hsource.symm, if_neg (by rw [hsource]; exact hne.symm)] at hon
    omega
  · rw [if_neg hsource]
    rw [if_neg fun hc => hsource hc.symm] at hon
    by_cases htarget : team = target
    · rw [if_pos htarget]
      rw [if_pos htarget.symm] at hon
      omega
    · rw [if_neg htarget]
      rw [if_neg fun hc => htarget hc.symm] at hon
      omega

theorem moveToTeam_eq (randomMT : ℕ → ℕ) {s : TeamBalancer} (h : WellCounted s) {team : ℕ}
    (hteam : team < s.teamLimits.length) (hlt : s.membersOn team < s.minTeamMembers)
    (hroom : s.count team < s.limit team) :
    ∃ s' source, moveToTeam randomMT team s.maxTeamMembers s = some s' ∧ WellCounted s' ∧
      Rearranged s s' ∧ source < s.teamLimits.length ∧ source ≠ team ∧
        s.maxTeamMembers ≤ s.membersOn source ∧ s'.membersOn = moved s.membersOn source team := by
  obtain ⟨source, hsource, hover⟩ := exists_overpopulated h hteam hlt
  have hmax := le_maxTeamMembers s
  have hpos : 0 < s.membersOn source := by omega
  obtain ⟨m, hm, hcurrent⟩ := List.countP_pos_iff.mp hpos
  obtain ⟨i, hi, rfl⟩ := List.getElem_of_mem hm
  have hmem : (s.member i).currentTeam ∈ s.getOverpopulatedTeams s.maxTeamMembers := by
    rw [mem_getOverpopulatedTeams h, member_eq hi, beq_iff_eq.mp hcurrent]
    exact ⟨hsource, hover⟩
  obtain ⟨j, hj, hjmem, hchosen⟩ :=
    getMemberIndexToSwitchTeams_eq randomMT team hi hmem
  rw [mem_getOverpopulatedTeams h] at hjmem
  have hne : (s.member j).currentTeam ≠ team := by
    intro heq
    rw [heq] at hjmem
    omega
  refine ⟨(s.countDraw.switchMemberTeam j team).notifyTeamAssigment j,
    (s.member j).currentTeam, by rw [moveToTeam, hchosen]; rfl, ?_, ?_, hjmem.1, hne, hjmem.2, ?_⟩
  · have hdraw : WellCounted s.countDraw := h.congr rfl rfl rfl
    exact (hdraw.switchMemberTeam hj hteam (Or.inr hroom)).notifyTeamAssigment j
  · have hdraw := rearranged_countDraw s
    exact (hdraw.trans (rearranged_switchMemberTeam (s := s.countDraw) hj team)).trans
      (rearranged_notifyTeamAssigment _ j)
  · funext t
    rw [membersOn_notifyTeamAssigment]
    exact congrFun (membersOn_moved (s := s.countDraw) hj hne) t

/-- The rule of `EvenTeams`: what holds of the counts before a team's turn, and is kept when one
member goes there from an overpopulated team. -/
theorem evenTeams_yields (randomMT : ℕ → ℕ) (inv : ℕ → (ℕ → ℕ) → Prop) {s : TeamBalancer} (h : WellCounted s)
    (hfuel : enough → s.teamMembers.length < fuel)
    (hmove : ∀ team source counts, team < s.teamLimits.length → source < s.teamLimits.length →
      source ≠ team → ∑ t ∈ Finset.range s.teamLimits.length, counts t = s.teamMembers.length →
        inv team counts → counts team < s.minTeamMembers → counts team < s.limit team →
          s.maxTeamMembers ≤ counts source → inv team (moved counts source team))
    (hnext : ∀ team counts, team < s.teamLimits.length → inv team counts →
      s.minTeamMembers ≤ counts team ∨ s.limit team ≤ counts team → inv (team + 1) counts)
    (hstart : inv 0 s.membersOn) :
    Yields enough
      (fun s' => WellCounted s' ∧ Rearranged s s' ∧ inv s.teamLimits.length s'.membersOn)
      (evenTeams randomMT fuel s) := by
  rw [evenTeams, if_neg h.teams, h.lengths]
  apply foldlM_range_yields (fun team s' => WellCounted s' ∧ Rearranged s s' ∧ inv team s'.membersOn)
  · intro team s' hteam hs'
    refine Yields.mono (whileLoop_yields
      (fun s'' => WellCounted s'' ∧ Rearranged s s'' ∧ inv team s''.membersOn)
      (fun s'' => s.minTeamMembers - s''.membersOn team) ?_ fuel s' hs' ?_) ?_
    · rintro s'' ⟨hcounted, hrearranged, hinv⟩ hlacks
      have hteam' : team < s''.teamLimits.length := hrearranged.teamLimits ▸ hteam
      rw [lacksMembers, Bool.and_eq_true, decide_eq_true_iff, decide_eq_true_iff,
        hcounted.counts team hteam'] at hlacks
      obtain ⟨s3, source, hs3, hcounted', hrearranged', hsource, hne, hover, hmoved⟩ :=
        moveToTeam_eq randomMT hcounted hteam'
          (hrearranged.minTeamMembers.symm ▸ hlacks.1)
          ((hcounted.counts team hteam').symm ▸ hlacks.2)
      rw [← hrearranged.maxTeamMembers, hs3]
      have hsum := sum_membersOn hcounted
      rw [hrearranged.teamLimits, hrearranged.length] at hsum
      have hkept := hmove team source s''.membersOn hteam (hrearranged.teamLimits ▸ hsource) hne
        hsum hinv hlacks.1 (hrearranged.limit team ▸ hlacks.2) (hrearranged.maxTeamMembers ▸ hover)
      refine ⟨⟨hcounted', hrearranged.trans hrearranged', hmoved ▸ hkept⟩, ?_⟩
      rw [hmoved, moved, if_neg hne.symm, if_pos rfl]
      omega
    · intro he
      have hlt := hfuel he
      have hmin : s.minTeamMembers ≤ s.teamMembers.length := Nat.div_le_self _ _
      omega
    · rintro s'' ⟨⟨hcounted, hrearranged, hinv⟩, hdone⟩
      refine ⟨hcounted, hrearranged, hnext team _ hteam hinv ?_⟩
      rw [lacksMembers, Bool.and_eq_false_iff, decide_eq_false_iff_not, decide_eq_false_iff_not,
        hcounted.counts team (hrearranged.teamLimits ▸ hteam), hrearranged.limit] at hdone
      omega
  · exact ⟨h, Rearranged.refl s, hstart⟩

/-! ### Members that want to join a team with room -/

/-- The members that have a request. -/
def pending (s : TeamBalancer) : ℕ :=
  s.teamMembers.countP fun m => !(m.requestedTeam == unassignedTeamId)

theorem pending_le (s : TeamBalancer) : s.pending ≤ s.teamMembers.length := List.countP_le_length

theorem pending_switchMemberTeam {s : TeamBalancer} {i team : ℕ} (hi : i < s.teamMembers.length)
    (hrequest : (s.member i).requestedTeam = team) (hteam : team ≠ unassignedTeamId) :
    (s.switchMemberTeam i team).pending < s.pending := by
  have hset : (s.switchMemberTeam i team).pending + 1 = s.pending := by
    have hadd := countP_set_add (fun m => !(m.requestedTeam == unassignedTeamId)) hi
      ((s.switchMemberTeam i team).member i)
    have hmember : (s.switchMemberTeam i team).member i =
        { s.member i with currentTeam := team, requestedTeam := unassignedTeamId } := by
      rw [member_eq (by simpa [switchMemberTeam] using hi)]
      simp [switchMemberTeam, hrequest]
    rw [← member_eq hi, hmember, hrequest] at hadd
    simp only [beq_self_eq_true, Bool.not_true, Bool.false_eq_true, if_false,
      beq_eq_false_iff_ne.mpr hteam, Bool.not_false, if_true, add_zero] at hadd
    rw [pending, pending, switchMemberTeam, if_pos hrequest]
    exact hadd
  omega

theorem room_left {s : TeamBalancer} (h : WellCounted s) {i team : ℕ}
    (hi : i < s.teamMembers.length) (hteam : team < s.teamLimits.length)
    (hroom : s.count team < s.limit team) :
    (s.switchMemberTeam i team).count (s.member i).currentTeam <
      s.limit (s.member i).currentTeam := by
  have hold := h.current_member hi
  rw [(h.switchMemberTeam hi hteam (Or.inr hroom)).counts _ hold]
  have hon := membersOn_switchMemberTeam hi team (s.member i).currentTeam
  have hpos := membersOn_pos hi
  have hcounts := h.counts _ hold
  have hwithin := h.within _ hold
  rw [if_pos rfl] at hon
  by_cases hsame : team = (s.member i).currentTeam
  · rw [if_pos hsame] at hon
    rw [← hsame] at hon hcounts ⊢
    omega
  · rw [if_neg hsame] at hon
    omega

theorem membersThatWantToJoin_yields {s : TeamBalancer} (team : ℕ)
    (hfuel : enough → s.teamMembers.length < fuel)
    (hfew : enough → s.teamMembers.length < 256) :
    Yields enough
      (fun joining => ∀ i ∈ joining,
        i < s.teamMembers.length ∧ (s.member i).requestedTeam = team)
      (s.membersThatWantToJoin fuel team) := by
  rw [membersThatWantToJoin]
  apply countedLoop_yields (fun _ joining => ∀ i ∈ joining,
    i < s.teamMembers.length ∧ (s.member i).requestedTeam = team) hfew
  · intro i joining hi hjoining
    by_cases hteam : (s.member i).requestedTeam = team
    · rw [if_pos hteam]
      intro j hj
      rcases List.mem_append.mp hj with hj | hj
      · exact hjoining j hj
      · rw [List.mem_singleton.mp hj]
        exact ⟨hi, hteam⟩
    · rw [if_neg hteam]
      exact hjoining
  · omega
  · omega
  · simp
  · exact hfuel

/-- What the chain of moves keeps: the team whose turn it is has room. -/
structure Chained (s : TeamBalancer) (r : TeamBalancer × ℕ) : Prop where
  counted : WellCounted r.1
  rearranged : Rearranged s r.1
  room : r.2 ≠ unassignedTeamId → r.2 < s.teamLimits.length ∧ r.1.count r.2 < s.limit r.2

theorem moveMemberInternal_yields {s : TeamBalancer} {r : TeamBalancer × ℕ} (h : Chained s r)
    (hteam : r.2 ≠ unassignedTeamId) (hfuel : enough → s.teamMembers.length < fuel)
    (hfew : enough → s.teamMembers.length < 256) :
    Yields enough
      (fun r' => Chained s r' ∧ (r'.2 ≠ unassignedTeamId → r'.1.pending < r.1.pending))
      (r.1.moveMemberThatWantsToJoinTeamInternal randomMT fuel r.2) := by
  have hlen := h.rearranged.length
  rw [moveMemberThatWantsToJoinTeamInternal]
  apply (membersThatWantToJoin_yields r.2 (hlen ▸ hfuel) (hlen ▸ hfew)).bind
  intro joining hjoining
  by_cases hnone : joining = []
  · rw [if_pos hnone]
    exact ⟨⟨h.counted, h.rearranged, fun hne => absurd rfl hne⟩, fun hne => absurd rfl hne⟩
  · rw [if_neg hnone]
    obtain ⟨i, hi, hchosen⟩ := choose_mem randomMT (s := r.1) hnone
    obtain ⟨hi, hrequest⟩ := hjoining i hi
    have hroom := h.room hteam
    have hdraw : WellCounted r.1.countDraw := h.counted.congr rfl rfl rfl
    have hteam' : r.2 < r.1.teamLimits.length := h.rearranged.teamLimits ▸ hroom.1
    have hroom' : r.1.count r.2 < r.1.limit r.2 := by
      rw [h.rearranged.limit]
      exact hroom.2
    have hswitched := hdraw.switchMemberTeam hi hteam' (Or.inr hroom')
    have hrearranged : Rearranged s (r.1.countDraw.switchMemberTeam i r.2) :=
      (h.rearranged.trans (rearranged_countDraw r.1)).trans
        (rearranged_switchMemberTeam (s := r.1.countDraw) hi r.2)
    rw [hchosen]
    refine ⟨⟨hswitched.notifyTeamAssigment i, hrearranged.trans
      (rearranged_notifyTeamAssigment _ i), fun _ => ?_⟩, fun _ => ?_⟩
    · have hleft := room_left hdraw hi hteam' hroom'
      refine ⟨h.rearranged.teamLimits ▸ h.counted.current_member hi, ?_⟩
      rw [count_notifyTeamAssigment, ← h.rearranged.limit]
      exact hleft
    · rw [pending, teamMembers_notifyTeamAssigment]
      exact pending_switchMemberTeam (s := r.1.countDraw) hi hrequest hteam

theorem moveMemberThatWantsToJoinTeam_yields {s : TeamBalancer} (h : WellCounted s) {team : ℕ}
    (hteam : team < s.teamLimits.length) (hroom : s.count team < s.limit team)
    (hfuel : enough → s.teamMembers.length < fuel)
    (hfew : enough → s.teamMembers.length < 256) :
    Yields enough (fun s' => WellCounted s' ∧ Rearranged s s')
      (s.moveMemberThatWantsToJoinTeam randomMT fuel team) := by
  have hstart : Chained s (s, team) := ⟨h, Rearranged.refl s, fun _ => ⟨hteam, hroom⟩⟩
  have hids := h.teamIds
  rw [moveMemberThatWantsToJoinTeam]
  apply @Yields.map _ _ _ (Chained s)
  · apply (moveMemberInternal_yields hstart (by dsimp only; omega) hfuel hfew).bind
    rintro r ⟨hr, hpending⟩
    dsimp only at hpending
    refine Yields.mono (whileLoop_yields (Chained s)
      (fun r => if r.2 = unassignedTeamId then 0 else r.1.pending + 1) ?_ fuel r hr ?_)
      fun r' hr' => hr'.1
    · intro r hr hne
      have hne' : r.2 ≠ unassignedTeamId := decide_eq_true_iff.mp hne
      refine (moveMemberInternal_yields hr hne' hfuel hfew).mono fun r' hr' => ⟨hr'.1, ?_⟩
      rw [if_neg hne']
      by_cases hdone : r'.2 = unassignedTeamId
      · rw [if_pos hdone]
        omega
      · have hlt := hr'.2 hdone
        rw [if_neg hdone]
        omega
    · intro he
      have hlt := hfuel he
      by_cases hdone : r.2 = unassignedTeamId
      · rw [if_pos hdone]
        omega
      · have hless := hpending hdone
        have hle := pending_le s
        rw [if_neg hdone]
        omega
  · exact fun r hr => ⟨hr.counted, hr.rearranged⟩

end TeamBalancer
end SLikeNet
