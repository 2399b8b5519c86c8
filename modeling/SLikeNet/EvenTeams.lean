import SLikeNet.TeamLimits

/-! When `EvenTeams` evens the teams, whichever members it draws. -/

namespace SLikeNet

open FuelledLoop EvenCounts

namespace TeamBalancer

variable {randomMT : ℕ → ℕ} {enough : Prop} {fuel : ℕ}

/-- `EvenTeams` evens the teams whichever members it draws. -/
def CanBeEvened (s : TeamBalancer) : Prop :=
  s.teamLimits.length ≤ 2 ∨
  s.teamMembers.length % s.teamLimits.length = 1 ∨
  (s.teamMembers.length % s.teamLimits.length = 0 ∧
    ∀ team < s.teamLimits.length, s.count team = s.minTeamMembers) ∨
  (2 ≤ s.teamMembers.length % s.teamLimits.length ∧
    ∀ team < s.teamLimits.length, s.count team ≤ s.minTeamMembers + 1)

/-- A member can leave this team without another one being larger by two then. -/
def LargestTeam (s : TeamBalancer) (team : ℕ) : Prop :=
  s.teamMembers.length % s.teamLimits.length = 0 ∨ s.minTeamMembers < s.count team

/-- No limit is reached. -/
def Roomy (s : TeamBalancer) : Prop :=
  ∀ team < s.teamLimits.length, s.count team < s.limit team

/-- What `EvenTeams` reaches for every team, unless the team's limit is in the way. -/
def Filled (s : TeamBalancer) (n : ℕ) (counts : ℕ → ℕ) : Prop :=
  ∀ team < n, s.minTeamMembers ≤ counts team ∨ s.limit team ≤ counts team

theorem filled_succ {s : TeamBalancer} {n : ℕ} {counts : ℕ → ℕ} (h : Filled s n counts)
    (hn : s.minTeamMembers ≤ counts n ∨ s.limit n ≤ counts n) : Filled s (n + 1) counts := by
  intro team hteam
  by_cases hlt : team < n
  · exact h team hlt
  · obtain rfl : team = n := by omega
    exact hn

theorem filled_moved {s : TeamBalancer} {n source target : ℕ} {counts : ℕ → ℕ}
    (h : Filled s n counts) (hsource : s.minTeamMembers < counts source) :
    Filled s n (moved counts source target) := by
  intro team hteam
  have hfilled := h team hteam
  rw [moved]
  by_cases hs : team = source
  · rw [if_pos hs, hs]
    exact Or.inl (by omega)
  · rw [if_neg hs]
    split <;> omega

/-- The state after `EvenTeams`. -/
structure Evened (s s' : TeamBalancer) : Prop extends Rearranged s s' where
  counted : WellCounted s'
  filled : Filled s s.teamLimits.length s'.membersOn

/-- No limit keeps a team from the average. -/
def Unlimited (s s' : TeamBalancer) : Prop :=
  ∀ team < s.teamLimits.length, s.limit team ≤ s'.membersOn team →
    s.minTeamMembers ≤ s'.membersOn team

theorem Evened.sum {s s' : TeamBalancer} (h : Evened s s') :
    ∑ team ∈ Finset.range s.teamLimits.length, s'.membersOn team = s.teamMembers.length := by
  have hsum := sum_membersOn h.counted
  rwa [h.teamLimits, h.length] at hsum

theorem Evened.le {s s' : TeamBalancer} (h : Evened s s') (hunlimited : Unlimited s s') {team : ℕ}
    (hteam : team < s.teamLimits.length) : s.minTeamMembers ≤ s'.membersOn team :=
  (h.filled team hteam).elim id (hunlimited team hteam)

theorem Evened.even_of_mod_zero {s s' : TeamBalancer} (h : Evened s s')
    (hmod : s.teamMembers.length % s.teamLimits.length = 0) (hunlimited : Unlimited s s') :
    Even s.teamLimits.length s'.membersOn := by
  have hge : ∀ team < s.teamLimits.length, s.minTeamMembers ≤ s'.membersOn team :=
    fun _ hteam => h.le hunlimited hteam
  exact even_of_level hge fun team hteam =>
    (eq_div_of_mod_zero h.sum hge hmod hteam).le.trans (Nat.le_succ _)

theorem Evened.even_of_mod_one {s s' : TeamBalancer} (h : Evened s s')
    (hmod : s.teamMembers.length % s.teamLimits.length = 1) (hunlimited : Unlimited s s') :
    Even s.teamLimits.length s'.membersOn := by
  have hge : ∀ team < s.teamLimits.length, s.minTeamMembers ≤ s'.membersOn team :=
    fun _ hteam => h.le hunlimited hteam
  exact even_of_level hge fun team hteam => le_div_of_mod_one h.sum hge hmod hteam

theorem maxTeamMembers_of_mod_pos {s : TeamBalancer}
    (h : 0 < s.teamMembers.length % s.teamLimits.length) :
    s.maxTeamMembers = s.minTeamMembers + 1 := by
  rw [maxTeamMembers, if_neg (by omega)]

/-- With members left over, `EvenTeams` takes no member of a team that has just the average. -/
theorem evenTeams_of_mod_pos {s : TeamBalancer} (h : WellCounted s)
    (hfuel : enough → s.teamMembers.length < fuel) {bound : ℕ} (hbound : s.minTeamMembers ≤ bound)
    (hmod : 0 < s.teamMembers.length % s.teamLimits.length)
    (hcounts : ∀ team < s.teamLimits.length, s.membersOn team ≤ bound) :
    Yields enough
      (fun s' => Evened s s' ∧ ∀ team < s.teamLimits.length, s'.membersOn team ≤ bound)
      (evenTeams randomMT fuel s) := by
  refine (evenTeams_yields randomMT (fun n counts => Filled s n counts ∧
    ∀ team < s.teamLimits.length, counts team ≤ bound) h hfuel ?_ ?_ ?_).mono ?_
  · rintro team source counts hteam hsource hne hsum ⟨hfilled, hle⟩ hlt hroom hover
    rw [maxTeamMembers_of_mod_pos hmod] at hover
    refine ⟨filled_moved hfilled (by omega), fun t ht => ?_⟩
    have hlet := hle t ht
    rw [moved]
    by_cases hs : t = source
    · rw [if_pos hs]
      omega
    · rw [if_neg hs]
      by_cases htarget : t = team
      · rw [if_pos htarget, htarget]
        omega
      · rw [if_neg htarget]
        exact hlet
  · rintro team counts hteam ⟨hfilled, hle⟩ hdone
    exact ⟨filled_succ hfilled hdone, hle⟩
  · exact ⟨fun team hteam => absurd hteam (by omega), hcounts⟩
  · rintro s' ⟨hcounted, hrearranged, hfilled, hle⟩
    exact ⟨⟨hrearranged, hcounted, hfilled⟩, hle⟩

theorem evenTeams_of_two {s : TeamBalancer} (h : WellCounted s)
    (hfuel : enough → s.teamMembers.length < fuel) (htwo : s.teamLimits.length ≤ 2)
    (hmod : s.teamMembers.length % s.teamLimits.length = 0) :
    Yields enough (Evened s) (evenTeams randomMT fuel s) := by
  refine (evenTeams_yields randomMT (Filled s) h hfuel ?_ ?_ ?_).mono ?_
  · intro team source counts hteam hsource hne hsum hfilled hlt hroom hover
    apply filled_moved hfilled
    have hk : s.teamLimits.length = 2 := by omega
    have hdiv := Nat.div_add_mod s.teamMembers.length s.teamLimits.length
    rw [hmod, hk] at hdiv
    rw [hk, Finset.sum_range_succ, Finset.sum_range_one] at hsum
    have hmin : s.minTeamMembers = s.teamMembers.length / 2 := by rw [minTeamMembers, hk]
    have hpair : counts team + counts source = counts 0 + counts 1 := by
      have hcases : (team = 0 ∧ source = 1) ∨ (team = 1 ∧ source = 0) := by omega
      rcases hcases with ⟨rfl, rfl⟩ | ⟨rfl, rfl⟩
      · rfl
      · exact Nat.add_comm _ _
    omega
  · intro team counts hteam hfilled hdone
    exact filled_succ hfilled hdone
  · exact fun team hteam => absurd hteam (by omega)
  · rintro s' ⟨hcounted, hrearranged, hfilled⟩
    exact ⟨hrearranged, hcounted, hfilled⟩

theorem evenTeams_of_level {s : TeamBalancer} (h : WellCounted s)
    (hfuel : enough → s.teamMembers.length < fuel)
    (hlevel : ∀ team < s.teamLimits.length, s.membersOn team = s.minTeamMembers) :
    Yields enough (Evened s) (evenTeams randomMT fuel s) := by
  refine (evenTeams_yields randomMT (fun _ counts => ∀ team < s.teamLimits.length,
    counts team = s.minTeamMembers) h hfuel ?_ ?_ hlevel).mono ?_
  · intro team source counts hteam hsource hne hsum hcounts hlt
    have heq := hcounts team hteam
    omega
  · exact fun _ _ _ hcounts _ => hcounts
  · rintro s' ⟨hcounted, hrearranged, hcounts⟩
    exact ⟨hrearranged, hcounted, fun team hteam => Or.inl (hcounts team hteam).ge⟩

theorem evenTeams_even {s : TeamBalancer} (h : WellCounted s)
    (hfuel : enough → s.teamMembers.length < fuel) (hcan : CanBeEvened s) :
    Yields enough
      (fun s' => Evened s s' ∧ (Unlimited s s' → Even s.teamLimits.length s'.membersOn))
      (evenTeams randomMT fuel s) := by
  have hmodlt := Nat.mod_lt s.teamMembers.length (List.length_pos_iff.mpr h.teams)
  have hmodone : s.teamMembers.length % s.teamLimits.length = 1 →
      Yields enough
        (fun s' => Evened s s' ∧ (Unlimited s s' → Even s.teamLimits.length s'.membersOn))
        (evenTeams randomMT fuel s) := by
    intro hmod
    refine (evenTeams_of_mod_pos h hfuel (Nat.div_le_self _ _ : s.minTeamMembers ≤ _) (by omega)
      fun team _ => List.countP_le_length).mono ?_
    rintro s' ⟨hs', -⟩
    exact ⟨hs', hs'.even_of_mod_one hmod⟩
  rcases hcan with htwo | hone | ⟨hmod, hlevel⟩ | ⟨hmod, hbound⟩
  · by_cases hmod : s.teamMembers.length % s.teamLimits.length = 0
    · exact (evenTeams_of_two h hfuel htwo hmod).mono fun s' hs' =>
        ⟨hs', hs'.even_of_mod_zero hmod⟩
    · exact hmodone (by omega)
  · exact hmodone hone
  · refine (evenTeams_of_level h hfuel fun team hteam => ?_).mono fun s' hs' =>
      ⟨hs', hs'.even_of_mod_zero hmod⟩
    rw [← h.counts team hteam]
    exact hlevel team hteam
  · refine (evenTeams_of_mod_pos h hfuel (Nat.le_succ s.minTeamMembers) (by omega)
      fun team hteam => ?_).mono ?_
    · rw [← h.counts team hteam]
      exact hbound team hteam
    · rintro s' ⟨hs', hle⟩
      exact ⟨hs', fun hunlimited => even_of_level (fun _ hteam => hs'.le hunlimited hteam) hle⟩

end TeamBalancer

end SLikeNet
