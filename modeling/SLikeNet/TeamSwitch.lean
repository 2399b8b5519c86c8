import Mathlib.Data.List.Nodup
import SLikeNet.KickedMembers

/-! A member that switches teams: the teams that it has afterwards on the host and on the
participants, and those of a member that it swaps with. -/

namespace SLikeNet

namespace TeamManager

/-- What a new request is pushed over is not read any more. -/
def Member.addToRequestedTeams (x : Member) (r : RequestedTeam) : Member :=
  { x.removeFromRequestedTeams r.requested with
    teamsRequested := (x.removeFromRequestedTeams r.requested).teamsRequested ++ [r]
    removedBehind := (x.removeFromRequestedTeams r.requested).removedBehind.tail }

def Member.joinSpecificTeamCheck (x : Member) (specificTeamToJoin : ℕ) (ignoreRequested : Bool) :
    Bool :=
  if specificTeamToJoin ∈ x.teams then false
  else if ignoreRequested then true
  else
    match x.teamsRequested.find? fun r => r.requested == specificTeamToJoin with
    | none => true
    | some r => r.isTeamSwitch

def Member.switchSpecificTeamCheck (x : Member) (teamToJoin : ℕ) (teamToLeave : Option ℕ)
    (ignoreRequested : Bool) : Bool :=
  if teamToJoin ∈ x.teams then false
  else if teamToLeave.any fun left => !x.teams.contains left then false
  else if teamToLeave = some teamToJoin then false
  else if ignoreRequested then true
  else
    match x.teamsRequested.find? fun r => r.requested == teamToJoin with
    | none => true
    | some r => !r.isTeamSwitch || r.teamToLeave != teamToLeave

namespace World

/-! ### The host -/

def accepts (w : World) (m : ℕ) (r : RequestedTeam) (fromHost : Bool) : Bool :=
  if r.isTeamSwitch then
    (w.member m).switchSpecificTeamCheck r.requested r.teamToLeave fromHost
  else (w.member m).joinSpecificTeamCheck r.requested fromHost

def teamsWeAreLeaving (w : World) (m : ℕ) (r : RequestedTeam) : List ℕ :=
  if r.isTeamSwitch then
    match r.teamToLeave with
    | none => (w.member m).teams
    | some left => if left ∈ (w.member m).teams then [left] else []
  else []

/-- What the request comes to, if it is accepted. -/
def onJoinRequestedTeam (w : World) (m : ℕ) (r : RequestedTeam) (fromHost : Bool) :
    World × Option JoinResult :=
  if w.accepts m r fromHost then
    let w' := w.changeMember m fun x => x.addToRequestedTeams r
    let isTeamSwitch := r.isTeamSwitch && !(w'.teamsWeAreLeaving m r).isEmpty
    match w'.joinSpecificTeam m r.requested isTeamSwitch r.teamToLeave
        (w'.teamsWeAreLeaving m r) with
    | (w'', .joined) =>
      (w''.broadcast (.removeFromTeamsRequestedAndAddTeam m r.requested isTeamSwitch
        (if isTeamSwitch then r.teamToLeave else none)), some .joined)
    | (w'', result) => (w'', some result)
  else (w, none)

/-! ### The participants -/

def processTeamAssigned (p : World) (m : ℕ) (newTeam : List ℕ) : World :=
  let teamsLeft := (p.member m).teams.filter (· ∉ newTeam)
  let teamsJoined := newTeam.filter (· ∉ (p.member m).teams)
  teamsJoined.foldl
    (fun p team =>
      if team ∈ (p.member m).teams then p
      else (p.changeMember m fun x => x.removeFromRequestedTeams team).addToTeamList m team)
    (teamsLeft.foldl (fun p team => p.removeFromSpecificTeamInternal m team) p)

def onRemoveFromTeamsRequestedAndAddTeam (p : World) (m team : ℕ) (isTeamSwitch : Bool)
    (teamToLeave : Option ℕ) : World :=
  (match teamToLeave with
  | some left => p.removeFromSpecificTeamInternal m left
  | none => if isTeamSwitch then p.removeFromAllTeamsInternal m
      else p).removeFromTeamsRequestedAndAddTeam m team false none

def onReceive (p : World) : Message → World
  | .removeFromTeamsRequestedAndAddTeam m team isTeamSwitch teamToLeave =>
    p.onRemoveFromTeamsRequestedAndAddTeam m team isTeamSwitch teamToLeave
  | .updateTeamsRequestedToNoneAndAddTeam m team =>
    (p.changeMember m Member.updateTeamsRequestedToNone).addToTeamList m team
  | .leaveTeam m team =>
    if team ∈ (p.member m).teams then
      (p.removeFromSpecificTeamInternal m team).changeMember m fun x =>
        if x.teams = [] then { x with joinTeamType := .noTeam } else x
    else p
  | .teamAssigned m teams => p.processTeamAssigned m teams

/-- A participant has the same members on the same teams, and none twice. -/
structure Mirrors (w p : World) : Prop where
  nodup : ∀ m, (p.member m).teams.Nodup
  teams : ∀ m team, team ∈ (p.member m).teams ↔ team ∈ (w.member m).teams

def SameTeams (w p : World) : Prop :=
  ∀ m team, team ∈ (p.member m).teams ↔ team ∈ (w.member m).teams

/-- The member has left the teams that the request names, and no others, and only a member that it
has swapped with has changed teams; the participants come to the same with the messages. The system
that has asked is told of the member's teams in place of the last message. -/
structure LeavesNamed (w : World) (m : ℕ) (r : RequestedTeam) (w' : World) : Prop where
  member : ∀ team, team ∈ (w'.member m).teams ↔ team = r.requested ∨
    team ∈ (w.member m).teams ∧ ∃ left, r.teamToLeave = some left ∧ team ≠ left
  swapped : ∀ other ≠ m, (w'.member other).teams = (w.member other).teams ∨
    (w.member other).teams = [r.requested] ∧ ∃ left ∈ (w.member m).teams,
      (w'.member other).teams = [left] ∧ (r.teamToLeave = some left ∨ r.teamToLeave = none)
  participants : ∃ news, w'.sent = w.sent ++ news ∧ ∀ p, w.Mirrors p →
    w'.SameTeams (news.foldl onReceive p) ∧
      w'.SameTeams
        ((news.dropLast ++ [Message.teamAssigned m (w'.member m).teams]).foldl onReceive p)

/-- No swap takes a member off a team that it has not named. -/
def NamesAll (w : World) (m : ℕ) (r : RequestedTeam) : Prop :=
  w.balanceTeamsIsActive = true → ∀ left, r.teamToLeave = some left → left ∈ (w.member m).teams →
    ∀ team ∈ (w.member m).teams, team = left ∨ team = r.requested

variable {w w' p : World} {m team : ℕ} {r : RequestedTeam}

/-! ### Lists of teams -/

theorem teams_removeFromSpecificTeamInternal (p : World) (m team : ℕ) :
    ((p.removeFromSpecificTeamInternal m team).member m).teams = (p.member m).teams.erase team := by
  rw [removeFromSpecificTeamInternal]
  split
  · rw [member_changeMember, Function.update_self]
  · next hnot => exact (List.erase_of_not_mem hnot).symm

theorem member_removeFromSpecificTeamInternal {other : ℕ} (p : World) (team : ℕ)
    (hne : other ≠ m) :
    (p.removeFromSpecificTeamInternal m team).member other = p.member other := by
  rw [removeFromSpecificTeamInternal]
  split
  · exact Function.update_of_ne hne ..
  · rfl

theorem teams_afterLeaving_changeMember (w : World) (m : ℕ) {f : Member → Member}
    (hf : ∀ x, (f x).teams = x.teams) (isTeamSwitch : Bool) (teamToLeave : Option ℕ) :
    (((w.changeMember m f).afterLeaving m isTeamSwitch teamToLeave).member m).teams =
      ((w.afterLeaving m isTeamSwitch teamToLeave).member m).teams := by
  cases isTeamSwitch with
  | false => exact (congrArg Member.teams (Function.update_self ..)).trans (hf _)
  | true =>
    cases teamToLeave with
    | none => simp [afterLeaving]
    | some left =>
      have hteams : ((w.changeMember m f).member m).teams = (w.member m).teams :=
        (congrArg Member.teams (Function.update_self ..)).trans (hf _)
      simp only [afterLeaving, if_true]
      rw [teams_removeFromSpecificTeamInternal, teams_removeFromSpecificTeamInternal, hteams]

theorem teams_removeFromTeamsRequestedAndAddTeam (w : World) (m team : ℕ) (isTeamSwitch : Bool)
    (teamToLeave : Option ℕ) :
    ((w.removeFromTeamsRequestedAndAddTeam m team isTeamSwitch teamToLeave).member m).teams =
      ((w.afterLeaving m isTeamSwitch teamToLeave).member m).teams ++ [team] := by
  rw [removeFromTeamsRequestedAndAddTeam_eq, member_addToTeamList, Function.update_self,
    teams_afterLeaving_changeMember w m fun x => teams_removeFromRequestedTeams x team]

theorem member_afterLeaving {other : ℕ} (w : World) (hne : other ≠ m) (isTeamSwitch : Bool)
    (teamToLeave : Option ℕ) :
    (w.afterLeaving m isTeamSwitch teamToLeave).member other = w.member other := by
  cases isTeamSwitch with
  | false => rfl
  | true =>
    cases teamToLeave with
    | none => exact Function.update_of_ne hne ..
    | some left => exact member_removeFromSpecificTeamInternal w left hne

theorem member_removeFromTeamsRequestedAndAddTeam {other : ℕ} (w : World) (team : ℕ)
    (hne : other ≠ m) (isTeamSwitch : Bool) (teamToLeave : Option ℕ) :
    (w.removeFromTeamsRequestedAndAddTeam m team isTeamSwitch teamToLeave).member other =
      w.member other := by
  rw [removeFromTeamsRequestedAndAddTeam_eq, member_addToTeamList, Function.update_of_ne hne,
    member_afterLeaving _ hne, member_changeMember, Function.update_of_ne hne]

/-! ### What a participant does with a message -/

theorem foldl_removeFromSpecificTeamInternal (m : ℕ) (left : List ℕ) (p : World) :
    ((left.foldl (fun p team => p.removeFromSpecificTeamInternal m team) p).member m).teams =
        (p.member m).teams.diff left ∧
      ∀ other ≠ m, (left.foldl (fun p team => p.removeFromSpecificTeamInternal m team) p).member
        other = p.member other := by
  induction left generalizing p with
  | nil => exact ⟨rfl, fun _ _ => rfl⟩
  | cons team left ih =>
    obtain ⟨hteams, hothers⟩ := ih (p.removeFromSpecificTeamInternal m team)
    rw [List.foldl_cons]
    refine ⟨?_, fun other hne => ?_⟩
    · rw [hteams, teams_removeFromSpecificTeamInternal, List.diff_cons]
    · rw [hothers other hne, member_removeFromSpecificTeamInternal p team hne]

theorem foldl_joined (m : ℕ) (joined : List ℕ) (p : World) :
    (∀ team, team ∈ ((joined.foldl (fun p team =>
        if team ∈ (p.member m).teams then p
        else (p.changeMember m fun x => x.removeFromRequestedTeams team).addToTeamList m team)
          p).member m).teams ↔ team ∈ (p.member m).teams ∨ team ∈ joined) ∧
      ∀ other ≠ m, (joined.foldl (fun p team =>
        if team ∈ (p.member m).teams then p
        else (p.changeMember m fun x => x.removeFromRequestedTeams team).addToTeamList m team)
          p).member other = p.member other := by
  induction joined generalizing p with
  | nil => exact ⟨fun team => by simp, fun _ _ => rfl⟩
  | cons team joined ih =>
    rw [List.foldl_cons]
    by_cases hmem : team ∈ (p.member m).teams
    · rw [if_pos hmem]
      obtain ⟨hteams, hothers⟩ := ih p
      refine ⟨fun t => ?_, hothers⟩
      rw [hteams, List.mem_cons]
      constructor
      · exact fun h => h.imp_right .inr
      · rintro (h | rfl | h)
        · exact .inl h
        · exact .inl hmem
        · exact .inr h
    · rw [if_neg hmem]
      obtain ⟨hteams, hothers⟩ :=
        ih ((p.changeMember m fun x => x.removeFromRequestedTeams team).addToTeamList m team)
      refine ⟨fun t => ?_, fun other hne => ?_⟩
      · rw [hteams, member_addToTeamList, Function.update_self, member_changeMember,
          Function.update_self, List.mem_append, List.mem_singleton, List.mem_cons,
          teams_removeFromRequestedTeams, or_assoc]
      · rw [hothers other hne, member_addToTeamList, Function.update_of_ne hne,
          member_changeMember, Function.update_of_ne hne]

theorem processTeamAssigned_spec (hnodup : (p.member m).teams.Nodup) (newTeam : List ℕ) :
    (∀ team, team ∈ ((p.processTeamAssigned m newTeam).member m).teams ↔ team ∈ newTeam) ∧
      ∀ other ≠ m, (p.processTeamAssigned m newTeam).member other = p.member other := by
  rw [processTeamAssigned]
  obtain ⟨hleft, hothers⟩ := foldl_removeFromSpecificTeamInternal m
    ((p.member m).teams.filter (· ∉ newTeam)) p
  obtain ⟨hjoined, hothers'⟩ := foldl_joined m (newTeam.filter (· ∉ (p.member m).teams))
    (((p.member m).teams.filter (· ∉ newTeam)).foldl
      (fun p team => p.removeFromSpecificTeamInternal m team) p)
  refine ⟨fun team => ?_, fun other hne => (hothers' other hne).trans (hothers other hne)⟩
  rw [hjoined, hleft, hnodup.mem_sdiff_iff, List.mem_filter, List.mem_filter]
  by_cases hmem : team ∈ (p.member m).teams
  · simp [hmem]
  · simp [hmem]

theorem onRemoveFromTeamsRequestedAndAddTeam_spec (p : World) (m team : ℕ) {isTeamSwitch : Bool}
    {teamToLeave : Option ℕ} (hleave : teamToLeave ≠ none → isTeamSwitch = true) :
    ((p.onRemoveFromTeamsRequestedAndAddTeam m team isTeamSwitch teamToLeave).member m).teams =
        ((p.afterLeaving m isTeamSwitch teamToLeave).member m).teams ++ [team] ∧
      ∀ other ≠ m, (p.onRemoveFromTeamsRequestedAndAddTeam m team isTeamSwitch teamToLeave).member
        other = p.member other := by
  have heq : p.onRemoveFromTeamsRequestedAndAddTeam m team isTeamSwitch teamToLeave =
      (p.afterLeaving m isTeamSwitch teamToLeave).removeFromTeamsRequestedAndAddTeam m team false
        none := by
    cases teamToLeave with
    | none => cases isTeamSwitch <;> rfl
    | some left =>
      rw [hleave (Option.some_ne_none left)]
      rfl
  rw [heq, teams_removeFromTeamsRequestedAndAddTeam]
  refine ⟨rfl, fun other hne => ?_⟩
  rw [member_removeFromTeamsRequestedAndAddTeam _ _ hne, member_afterLeaving _ hne]

/-! ### A switch that is carried out -/

/-- How a request is passed on: the switch and the team to leave, or no switch where there is no
team to leave. -/
def Passes (w : World) (m : ℕ) (r : RequestedTeam) (isTeamSwitch : Bool)
    (teamToLeave : Option ℕ) : Prop :=
  isTeamSwitch = true ∧ teamToLeave = r.teamToLeave ∨
    isTeamSwitch = false ∧ ∀ team ∈ (w.member m).teams, ∃ left, r.teamToLeave = some left ∧
      team ≠ left

theorem mem_afterLeaving {isTeamSwitch : Bool} {teamToLeave : Option ℕ}
    (hpass : w.Passes m r isTeamSwitch teamToLeave) (hnodup : (p.member m).teams.Nodup)
    (hteams : ∀ team, team ∈ (p.member m).teams ↔ team ∈ (w.member m).teams) (team : ℕ) :
    team ∈ ((p.afterLeaving m isTeamSwitch teamToLeave).member m).teams ↔
      team ∈ (w.member m).teams ∧ ∃ left, r.teamToLeave = some left ∧ team ≠ left := by
  obtain ⟨rfl, rfl⟩ | ⟨rfl, hnone⟩ := hpass
  · cases hleave : r.teamToLeave with
    | none => simp [afterLeaving]
    | some left =>
      simp only [afterLeaving, if_true, Option.some.injEq, exists_eq_left']
      rw [teams_removeFromSpecificTeamInternal, hnodup.mem_erase_iff, hteams, and_comm]
  · change team ∈ (p.member m).teams ↔ _
    rw [hteams]
    exact ⟨fun h => ⟨h, hnone team h⟩, fun h => h.1⟩

theorem sent_removeFromTeamsRequestedAndAddTeam (w : World) (m team : ℕ) (isTeamSwitch : Bool)
    (teamToLeave : Option ℕ) :
    (w.removeFromTeamsRequestedAndAddTeam m team isTeamSwitch teamToLeave).sent = w.sent := by
  cases isTeamSwitch with
  | false => rfl
  | true =>
    cases teamToLeave with
    | none => rfl
    | some left =>
      change (removeFromSpecificTeamInternal _ m left).sent = w.sent
      rw [removeFromSpecificTeamInternal]
      split <;> rfl

theorem joinSpecificTeam_joined {isTeamSwitch : Bool} {teamToLeave : Option ℕ}
    {teamsWeAreLeaving : List ℕ}
    (h : w.joinSpecificTeam m team isTeamSwitch teamToLeave teamsWeAreLeaving = (w', .joined)) :
    (w.balanceTeamsIsActive = false ∨ teamsWeAreLeaving = []) ∧
        w' = w.removeFromTeamsRequestedAndAddTeam m team isTeamSwitch teamToLeave ∨
      w.balanceTeamsIsActive = true ∧ ∃ left other, teamsWeAreLeaving = [left] ∧
        w.getMemberWithRequestedSingleTeamSwitch team left = some other ∧
          w' = w.swapMembers m team other left := by
  rw [joinSpecificTeam] at h
  split at h
  · split at h
    · next hnormal =>
      split at h
      · exact .inl ⟨hnormal, (Prod.mk.inj h).1.symm⟩
      · cases (Prod.mk.inj h).2
    · next hactive =>
      split at h
      · next hone =>
        obtain ⟨left, rfl⟩ := List.length_eq_one_iff.mp hone
        split at h
        · next other hother =>
          exact .inr ⟨by simpa using hactive, left, other, rfl, hother, (Prod.mk.inj h).1.symm⟩
        · cases (Prod.mk.inj h).2
      · cases (Prod.mk.inj h).2
  · cases (Prod.mk.inj h).2

/-- The message that follows a switch. -/
def switchMessage (m : ℕ) (r : RequestedTeam) (isTeamSwitch : Bool) (teamToLeave : Option ℕ) :
    Message :=
  .removeFromTeamsRequestedAndAddTeam m r.requested isTeamSwitch
    (if isTeamSwitch then teamToLeave else none)

theorem onReceive_switchMessage {isTeamSwitch : Bool} {teamToLeave : Option ℕ}
    (hpass : w.Passes m r isTeamSwitch teamToLeave) (hnodup : (p.member m).teams.Nodup)
    (hmirrors : ∀ team, team ∈ (p.member m).teams ↔ team ∈ (w.member m).teams) :
    (∀ team, team ∈ ((p.onReceive (switchMessage m r isTeamSwitch teamToLeave)).member m).teams ↔
      team = r.requested ∨
        team ∈ (w.member m).teams ∧ ∃ left, r.teamToLeave = some left ∧ team ≠ left) ∧
    ∀ other ≠ m, (p.onReceive (switchMessage m r isTeamSwitch teamToLeave)).member other =
      p.member other := by
  have hpass' : w.Passes m r isTeamSwitch (if isTeamSwitch then teamToLeave else none) := by
    obtain ⟨rfl, rfl⟩ | ⟨rfl, hnone⟩ := hpass
    · exact .inl ⟨rfl, rfl⟩
    · exact .inr ⟨rfl, hnone⟩
  have hleave : (if isTeamSwitch then teamToLeave else none) ≠ none → isTeamSwitch = true := by
    cases isTeamSwitch with
    | false => exact fun hnot => absurd rfl hnot
    | true => exact fun _ => rfl
  obtain ⟨hteams, hothers⟩ := onRemoveFromTeamsRequestedAndAddTeam_spec p m r.requested hleave
  refine ⟨fun team => ?_, hothers⟩
  change team ∈ ((p.onRemoveFromTeamsRequestedAndAddTeam m r.requested isTeamSwitch
    (if isTeamSwitch then teamToLeave else none)).member m).teams ↔ _
  rw [hteams, List.mem_append, List.mem_singleton, mem_afterLeaving hpass' hnodup hmirrors, or_comm]

theorem leavesNamed_of_one {isTeamSwitch : Bool} {teamToLeave : Option ℕ}
    (hpass : w.Passes m r isTeamSwitch teamToLeave)
    (hmember : ∀ team, team ∈ (w'.member m).teams ↔ team = r.requested ∨
      team ∈ (w.member m).teams ∧ ∃ left, r.teamToLeave = some left ∧ team ≠ left)
    (hothers : ∀ other ≠ m, w'.member other = w.member other)
    (hsent : w'.sent = w.sent ++ [switchMessage m r isTeamSwitch teamToLeave]) :
    LeavesNamed w m r w' := by
  refine ⟨hmember, fun other hne => .inl (congrArg Member.teams (hothers other hne)), _, hsent,
    fun p hp => ⟨fun x t => ?_, fun x t => ?_⟩⟩
  · obtain ⟨hteams, hsame⟩ := onReceive_switchMessage hpass (hp.nodup m) (hp.teams m)
    change t ∈ ((p.onReceive (switchMessage m r isTeamSwitch teamToLeave)).member x).teams ↔ _
    by_cases hx : x = m
    · rw [hx, hteams, hmember]
    · rw [hsame x hx, hp.teams, hothers x hx]
  · obtain ⟨hteams, hsame⟩ := processTeamAssigned_spec (hp.nodup m) (w'.member m).teams
    change t ∈ ((p.processTeamAssigned m (w'.member m).teams).member x).teams ↔ _
    by_cases hx : x = m
    · rw [hx, hteams]
    · rw [hsame x hx, hp.teams, hothers x hx]

theorem leavesNamed_added (hnodup : ∀ m, (w.member m).teams.Nodup) {isTeamSwitch : Bool}
    {teamToLeave : Option ℕ} (hpass : w.Passes m r isTeamSwitch teamToLeave) :
    LeavesNamed w m r ((w.removeFromTeamsRequestedAndAddTeam m r.requested isTeamSwitch
      teamToLeave).broadcast (switchMessage m r isTeamSwitch teamToLeave)) := by
  refine leavesNamed_of_one hpass (fun team => ?_)
    (fun other hne => member_removeFromTeamsRequestedAndAddTeam w r.requested hne _ _) ?_
  · change team ∈ ((w.removeFromTeamsRequestedAndAddTeam m r.requested isTeamSwitch
      teamToLeave).member m).teams ↔ _
    rw [teams_removeFromTeamsRequestedAndAddTeam, List.mem_append, List.mem_singleton,
      mem_afterLeaving hpass (hnodup m) fun _ => Iff.rfl, or_comm]
  · rw [World.broadcast, sent_removeFromTeamsRequestedAndAddTeam]

theorem eq_singleton_of_nodup {teams : List ℕ} (hnodup : teams.Nodup)
    (hteams : ∀ t, t ∈ teams ↔ t = team) : teams = [team] := by
  refine List.perm_singleton.mp ((List.perm_ext_iff_of_nodup hnodup
    (List.nodup_singleton team)).mpr fun t => ?_)
  rw [hteams, List.mem_singleton]

/-- The members of a swap: each is on one team afterwards. -/
structure Swap (w : World) (m team other left : ℕ) (w' : World) : Prop where
  mem_left : left ∈ (w.member m).teams
  before : (w.member other).teams = [team]
  self : other = m → left = team
  member : (w'.member m).teams = [team]
  partner : (w'.member other).teams = [left]
  others : ∀ x, x ≠ m → x ≠ other → w'.member x = w.member x

theorem sent_swapMembers (w : World) (m team other left : ℕ) :
    (w.swapMembers m team other left).sent = w.sent ++ [.teamAssigned other [left]] := by
  rw [swapMembers, teams_removeFromAll, World.broadcast, sent_removeFromTeamsRequestedAndAddTeam,
    sent_removeFromTeamsRequestedAndAddTeam]

theorem swap_swapMembers (h : Consistent w) {other left : ℕ} (hleft : left ∈ (w.member m).teams)
    (hother : w.getMemberWithRequestedSingleTeamSwitch team left = some other) :
    Swap w m team other left (w.swapMembers m team other left) := by
  have hbefore := teams_partner h hother
  have hself : other = m → left = team := by
    rintro rfl
    rwa [hbefore, List.mem_singleton] at hleft
  have hlast : ((w.swapMembers m team other left).member other).teams = [left] :=
    teams_removeFromAll _ other left
  refine ⟨hleft, hbefore, hself, ?_, hlast, fun x hm ho => ?_⟩
  · by_cases heq : other = m
    · subst heq
      rw [hlast, hself rfl]
    · change ((removeFromTeamsRequestedAndAddTeam _ other left true none).member m).teams = _
      rw [member_removeFromAll _ left (Ne.symm heq)]
      exact teams_removeFromAll w m team
  · change (removeFromTeamsRequestedAndAddTeam _ other left true none).member x = _
    rw [member_removeFromAll _ left ho, member_removeFromAll _ team hm]

theorem onReceive_teamAssigned {other left : ℕ} (hswap : Swap w m team other left w')
    (hp : w.Mirrors p) :
    (∀ t, t ∈ ((p.onReceive (.teamAssigned other [left])).member other).teams ↔ t = left) ∧
      (p.onReceive (.teamAssigned other [left])).member m = p.member m ∧
        ∀ x, x ≠ other → (p.onReceive (.teamAssigned other [left])).member x = p.member x := by
  obtain ⟨hteams, hsame⟩ := processTeamAssigned_spec (hp.nodup other) [left]
  refine ⟨fun t => (hteams t).trans List.mem_singleton, ?_, hsame⟩
  by_cases heq : other = m
  · -- A member that swaps with itself stays where it is.
    have hleft := hswap.self heq
    have hone : (p.member other).teams = [left] := by
      refine eq_singleton_of_nodup (hp.nodup other) fun t => ?_
      rw [hp.teams, hswap.before, hleft, List.mem_singleton]
    rw [← heq]
    simp [onReceive, processTeamAssigned, hone]
  · exact hsame m (Ne.symm heq)

theorem leavesNamed_swapped {other left : ℕ} {isTeamSwitch : Bool} {teamToLeave : Option ℕ}
    (hpass : w.Passes m r isTeamSwitch teamToLeave)
    (hswap : Swap w m r.requested other left w')
    (hnames : r.teamToLeave = some left ∨ r.teamToLeave = none)
    (hall : ∀ team ∈ (w.member m).teams, r.teamToLeave = some left →
      team = left ∨ team = r.requested)
    (hsent : w'.sent = w.sent ++ [.teamAssigned other [left],
      switchMessage m r isTeamSwitch teamToLeave]) : LeavesNamed w m r w' := by
  have hmember : ∀ team, team ∈ (w'.member m).teams ↔ team = r.requested ∨
      team ∈ (w.member m).teams ∧ ∃ left, r.teamToLeave = some left ∧ team ≠ left := by
    intro t
    rw [hswap.member, List.mem_singleton]
    refine ⟨.inl, ?_⟩
    rintro (rfl | ⟨hmem, other, hleave, hne⟩)
    · rfl
    · obtain hleft | hnone := hnames
      · obtain rfl := Option.some.inj (hleft.symm.trans hleave)
        exact (hall t hmem hleft).resolve_left hne
      · rw [hnone] at hleave
        cases hleave
  refine ⟨hmember, fun x hx => ?_, _, hsent, fun p hp => ?_⟩
  · by_cases ho : x = other
    · rw [ho]
      exact .inr ⟨hswap.before, left, hswap.mem_left, hswap.partner, hnames⟩
    · exact .inl (congrArg Member.teams (hswap.others x hx ho))
  · obtain ⟨hpartner, hkept, hsame⟩ := onReceive_teamAssigned hswap hp
    have hfinal : ∀ p' : World, (∀ t, t ∈ (p'.member m).teams ↔ t ∈ (w'.member m).teams) →
        (∀ x ≠ m, p'.member x = (p.onReceive (.teamAssigned other [left])).member x) →
          w'.SameTeams p' := by
      intro p' hm hothers x t
      by_cases hx : x = m
      · rw [hx, hm]
      · rw [hothers x hx]
        by_cases ho : x = other
        · rw [ho, hpartner, hswap.partner, List.mem_singleton]
        · rw [hsame x ho, hp.teams, hswap.others x hx ho]
    constructor
    · obtain ⟨hafter, hothers⟩ :=
        onReceive_switchMessage (p := p.onReceive (.teamAssigned other [left])) hpass
          (hkept ▸ hp.nodup m) (hkept ▸ hp.teams m)
      exact hfinal _ (fun t => (hafter t).trans (hmember t).symm) hothers
    · obtain ⟨hafter, hothers⟩ :=
        processTeamAssigned_spec (p := p.onReceive (.teamAssigned other [left]))
          (hkept ▸ hp.nodup m) (w'.member m).teams
      exact hfinal _ hafter hothers

theorem leavesNamed_iff (h : Consistent w) (hnodup : ∀ m, (w.member m).teams.Nodup)
    {isTeamSwitch : Bool} {teamToLeave : Option ℕ} {teamsWeAreLeaving : List ℕ}
    (hpass : w.Passes m r isTeamSwitch teamToLeave)
    (hnone : r.teamToLeave = none → teamsWeAreLeaving = (w.member m).teams)
    (hsome : ∀ left, r.teamToLeave = some left →
      teamsWeAreLeaving = if left ∈ (w.member m).teams then [left] else [])
    (hjoined : w.joinSpecificTeam m r.requested isTeamSwitch teamToLeave teamsWeAreLeaving =
      (w', .joined)) :
    LeavesNamed w m r (w'.broadcast (switchMessage m r isTeamSwitch teamToLeave)) ↔
      w.NamesAll m r := by
  obtain ⟨hnormal, rfl⟩ | ⟨hactive, left, other, hleaving, hother, rfl⟩ :=
    joinSpecificTeam_joined hjoined
  · refine iff_of_true (leavesNamed_added hnodup hpass) fun hactive left hleave hmem => ?_
    rw [hsome left hleave, if_pos hmem, hactive] at hnormal
    simp at hnormal
  · have hleft : left ∈ (w.member m).teams ∧
        (r.teamToLeave = some left ∨ r.teamToLeave = none) := by
      cases hleave : r.teamToLeave with
      | none =>
        rw [← hnone hleave, hleaving]
        exact ⟨List.mem_singleton_self left, .inr rfl⟩
      | some named =>
        have hnamed := hsome named hleave
        rw [hleaving] at hnamed
        split at hnamed
        · next hmem =>
          obtain rfl := List.singleton_inj.mp hnamed
          exact ⟨hmem, .inl rfl⟩
        · cases hnamed
    have hswap := swap_swapMembers h hleft.1 hother
    constructor
    · intro hleaves _ named hnamed hmem t ht
      by_contra hneither
      rw [not_or] at hneither
      have hstays := (hleaves.member t).mpr (.inr ⟨ht, named, hnamed, hneither.1⟩)
      rw [show (((w.swapMembers m r.requested other left).broadcast _).member m).teams =
        [r.requested] from hswap.member, List.mem_singleton] at hstays
      exact hneither.2 hstays
    · intro hnames
      refine leavesNamed_swapped hpass
          ⟨hswap.mem_left, hswap.before, hswap.self, hswap.member, hswap.partner, hswap.others⟩
          hleft.2 (fun t ht hnamed => hnames hactive left hnamed hleft.1 t ht) ?_
      rw [World.broadcast, sent_swapMembers, List.append_assoc]
      rfl

/-! ### Requests that are carried out at once, and later -/

theorem passes_leaving (hswitch : r.isTeamSwitch = true) :
    w.Passes m r (w.leaving m r).1 (w.leaving m r).2.1 ∧
      (r.teamToLeave = none → (w.leaving m r).2.2 = (w.member m).teams) ∧
        (∀ left, r.teamToLeave = some left →
          (w.leaving m r).2.2 = if left ∈ (w.member m).teams then [left] else []) ∧
          (if (w.leaving m r).1 then (w.leaving m r).2.1 else none) = (w.leaving m r).2.1 := by
  cases hleave : r.teamToLeave with
  | none =>
    have hall : w.leaving m r = (true, none, (w.member m).teams) := by
      rw [leaving, if_pos hswitch, hleave]
    simp only [hall]
    refine ⟨.inl ⟨rfl, hleave.symm⟩, fun _ => trivial, fun left hsome => ?_, if_pos trivial⟩
    cases hsome
  | some left =>
    by_cases hmem : left ∈ (w.member m).teams
    · have hone : w.leaving m r = (true, some left, [left]) := by
        rw [leaving, if_pos hswitch, hleave]
        exact if_pos hmem
      simp only [hone]
      refine ⟨.inl ⟨rfl, hleave.symm⟩, fun hnone => ?_, fun left' hsome => ?_, rfl⟩
      · cases hnone
      · rw [← Option.some.inj hsome, if_pos hmem]
    · have hnot : w.leaving m r = (false, none, []) := by
        rw [leaving, if_pos hswitch, hleave]
        exact if_neg hmem
      simp only [hnot]
      refine ⟨.inr ⟨rfl, fun team ht => ⟨left, hleave, ?_⟩⟩, fun hnone => ?_,
        fun left' hsome => ?_, rfl⟩
      · rintro rfl
        exact hmem ht
      · cases hnone
      · rw [← Option.some.inj hsome, if_neg hmem]

/-- The request is carried out in its turn of `FillRequestedSlots`. -/
def ServesRequest (w : World) (m : ℕ) (r : RequestedTeam) : Prop :=
  (w.joinSpecificTeam m r.requested (w.leaving m r).1 (w.leaving m r).2.1
    (w.leaving m r).2.2).2 = .joined

theorem leavesNamed_serveRequest_iff (h : Consistent w) (hnodup : ∀ m, (w.member m).teams.Nodup)
    (hswitch : r.isTeamSwitch = true) (hserves : w.ServesRequest m r) :
    LeavesNamed w m r (w.serveRequest m r) ↔ w.NamesAll m r := by
  obtain ⟨hpass, hnone, hsome, hmessage⟩ := passes_leaving (w := w) (m := m) hswitch
  obtain ⟨w', hjoined⟩ : ∃ w', w.joinSpecificTeam m r.requested (w.leaving m r).1
      (w.leaving m r).2.1 (w.leaving m r).2.2 = (w', .joined) := ⟨_, Prod.ext rfl hserves⟩
  have hserved : w.serveRequest m r =
      w'.broadcast (switchMessage m r (w.leaving m r).1 (w.leaving m r).2.1) := by
    rw [serveRequest, switchMessage, hmessage]
    dsimp only
    rw [hjoined]
  rw [hserved]
  exact leavesNamed_iff h hnodup hpass hnone hsome hjoined

theorem LeavesNamed.congr {w₁ : World} (hteams : ∀ x, (w₁.member x).teams = (w.member x).teams)
    (hsent : w₁.sent = w.sent) (h : LeavesNamed w₁ m r w') : LeavesNamed w m r w' := by
  obtain ⟨hmember, hswapped, news, hnews, hparticipants⟩ := h
  simp only [hteams] at hmember hswapped
  refine ⟨hmember, hswapped, news, hsent ▸ hnews, fun p hp => hparticipants p ⟨hp.nodup, ?_⟩⟩
  intro x t
  rw [hteams]
  exact hp.teams x t

theorem teams_addToRequestedTeams (x : Member) (r : RequestedTeam) :
    (x.addToRequestedTeams r).teams = x.teams :=
  teams_removeFromRequestedTeams x r.requested

theorem passes_teamsWeAreLeaving (hswitch : r.isTeamSwitch = true) :
    w.Passes m r (r.isTeamSwitch && !(w.teamsWeAreLeaving m r).isEmpty) r.teamToLeave ∧
      (r.teamToLeave = none → w.teamsWeAreLeaving m r = (w.member m).teams) ∧
        ∀ left, r.teamToLeave = some left →
          w.teamsWeAreLeaving m r = if left ∈ (w.member m).teams then [left] else [] := by
  have hnone : r.teamToLeave = none → w.teamsWeAreLeaving m r = (w.member m).teams := by
    intro hleave
    rw [teamsWeAreLeaving, if_pos hswitch, hleave]
  have hsome : ∀ left, r.teamToLeave = some left →
      w.teamsWeAreLeaving m r = if left ∈ (w.member m).teams then [left] else [] := by
    intro left hleave
    rw [teamsWeAreLeaving, if_pos hswitch, hleave]
  refine ⟨?_, hnone, hsome⟩
  cases hempty : (w.teamsWeAreLeaving m r).isEmpty with
  | false => exact .inl ⟨by rw [hswitch]; rfl, rfl⟩
  | true =>
    rw [List.isEmpty_iff] at hempty
    refine .inr ⟨by rw [hswitch]; rfl, fun team hteam => ?_⟩
    cases hleave : r.teamToLeave with
    | none =>
      rw [← hnone hleave, hempty] at hteam
      cases hteam
    | some left =>
      refine ⟨left, rfl, ?_⟩
      rintro rfl
      have hnamed := hsome team hleave
      rw [hempty, if_pos hteam] at hnamed
      cases hnamed

theorem leavesNamed_onJoinRequestedTeam_iff (h : Consistent w)
    (hnodup : ∀ m, (w.member m).teams.Nodup) (hswitch : r.isTeamSwitch = true) {fromHost : Bool}
    (hjoined : w.onJoinRequestedTeam m r fromHost = (w', some .joined)) :
    LeavesNamed w m r w' ↔ w.NamesAll m r := by
  have hadded := teams_addToRequestedTeams
  have hteams : ∀ x, ((w.changeMember m fun x => x.addToRequestedTeams r).member x).teams =
      (w.member x).teams := by
    intro x
    rw [member_changeMember]
    by_cases hx : x = m
    · rw [hx, Function.update_self, hadded]
    · rw [Function.update_of_ne hx]
  obtain ⟨hpass, hnone, hsome⟩ := passes_teamsWeAreLeaving
    (w := w.changeMember m fun x => x.addToRequestedTeams r) (m := m) hswitch
  rw [onJoinRequestedTeam] at hjoined
  split at hjoined
  · dsimp only at hjoined
    split at hjoined
    · next w'' hresult =>
      obtain rfl := (Prod.mk.inj hjoined).1
      have hiff := leavesNamed_iff (h.changeMember m fun x => hadded x r)
        (fun x => by rw [hteams]; exact hnodup x) hpass hnone hsome hresult
      have hnames : (w.changeMember m fun x => x.addToRequestedTeams r).NamesAll m r ↔
          w.NamesAll m r := by
        simp only [NamesAll, hteams]
        rfl
      rw [← hnames, ← hiff]
      exact ⟨LeavesNamed.congr (fun x => (hteams x).symm) rfl, LeavesNamed.congr hteams rfl⟩
    · next hnot _ =>
      exact absurd (Option.some.inj (Prod.mk.inj hjoined).2) hnot
  · cases (Prod.mk.inj hjoined).2

/-- A switch that is carried out, at once or in a turn of `FillRequestedSlots`, leaves exactly what
the request names just when the member, while teams are balanced, has no team but the one that it
names. -/
theorem switch_leaves_named_iff (h : Consistent w) (hnodup : ∀ m, (w.member m).teams.Nodup)
    (hswitch : r.isTeamSwitch = true) :
    (∀ fromHost w', w.onJoinRequestedTeam m r fromHost = (w', some .joined) →
      (LeavesNamed w m r w' ↔ w.NamesAll m r)) ∧
    (w.ServesRequest m r → (LeavesNamed w m r (w.serveRequest m r) ↔ w.NamesAll m r)) :=
  ⟨fun _ _ hjoined => leavesNamed_onJoinRequestedTeam_iff h hnodup hswitch hjoined,
    leavesNamed_serveRequest_iff h hnodup hswitch⟩

/-! ### A swap with a member of two teams -/

/-- Member 0 is on teams 0 and 1, member 1 is on team 2 and asks for team 0 instead. -/
def twoTeams : World where
  settings := List.replicate 3 ⟨5, [.anyAvailableTeam, .specificTeam, .rebalancing], true⟩
  size_le := by decide
  balanceTeamsIsActive := true
  membersCount := 2
  onTeam
    | 0 => [0]
    | 1 => [0]
    | 2 => [1]
    | _ => []
  member
    | 0 => ⟨[0, 1], [], [], .noTeam, 0, 0⟩
    | 1 => ⟨[2], [⟨1, 1, 0, true, none⟩], [], .noTeam, 0, 0⟩
    | _ => ⟨[], [], [], .noTeam, 0, 0⟩
  sent := []

theorem consistent_twoTeams : Consistent twoTeams := by
  constructor
  · rintro (- | - | - | team) (- | - | m) <;> simp [twoTeams]
  · rintro (- | - | m) <;> simp [twoTeams]

theorem nodup_twoTeams : ∀ m, (twoTeams.member m).teams.Nodup := by
  rintro (- | - | m) <;> simp [twoTeams]

/-- Member 0 asks to go from team 0 to team 2. -/
def twoTeamsRequest : RequestedTeam := ⟨2, 2, 2, true, some 0⟩

theorem switch_leaves_named_iff_twoTeams :
    (∀ fromHost w', twoTeams.onJoinRequestedTeam 0 twoTeamsRequest fromHost =
        (w', some .joined) →
      (LeavesNamed twoTeams 0 twoTeamsRequest w' ↔ twoTeams.NamesAll 0 twoTeamsRequest)) ∧
    (twoTeams.ServesRequest 0 twoTeamsRequest →
      (LeavesNamed twoTeams 0 twoTeamsRequest (twoTeams.serveRequest 0 twoTeamsRequest) ↔
        twoTeams.NamesAll 0 twoTeamsRequest)) :=
  switch_leaves_named_iff consistent_twoTeams nodup_twoTeams rfl

/-- The swap takes the member off team 1, too, which the participants keep. -/
theorem swap_leaves_every_team :
    ∃ w', twoTeams.onJoinRequestedTeam 0 twoTeamsRequest false = (w', some .joined) ∧
      ¬ LeavesNamed twoTeams 0 twoTeamsRequest w' := by
  refine ⟨(twoTeams.onJoinRequestedTeam 0 twoTeamsRequest false).1, Prod.ext rfl (by decide), ?_⟩
  intro hleaves
  have hstays := (hleaves.member 1).mpr (.inr ⟨by decide, 0, rfl, by decide⟩)
  have hteams : ((twoTeams.onJoinRequestedTeam 0 twoTeamsRequest false).1.member 0).teams =
      [2] := by decide
  rw [hteams] at hstays
  exact absurd hstays (by decide)

end World

end TeamManager

end SLikeNet
