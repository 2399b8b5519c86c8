import SLikeNet.BalancedTeamLimit
import SLikeNet.OrderedList
import Mathlib.Logic.Function.Basic

/-! `TM_World` on its host: the members of the teams and their requests. Teams and members stand for
the pointers to them. -/

namespace SLikeNet

namespace TeamManager

open FuelledLoop

inductive JoinPermission
  | anyAvailableTeam
  | specificTeam
  | rebalancing
deriving DecidableEq

inductive JoinTeamType
  | noTeam
  | specificTeam
  | anyAvailableTeam
deriving DecidableEq

structure TeamSettings where
  teamMemberLimit : ℕ
  joinPermissions : List JoinPermission
  balancingApplies : Bool
deriving DecidableEq, Inhabited

structure RequestedTeam where
  whenRequested : ℕ
  requestIndex : ℕ
  requested : ℕ
  isTeamSwitch : Bool
  teamToLeave : Option ℕ
deriving DecidableEq, Inhabited

/-- `removedBehind` is what the array of the requests holds behind its last element: the elements
that were there before some were removed. -/
structure Member where
  teams : List ℕ
  teamsRequested : List RequestedTeam
  removedBehind : List RequestedTeam
  joinTeamType : JoinTeamType
  whenJoinAnyRequested : ℕ
  joinAnyRequestIndex : ℕ
deriving DecidableEq

/-- The messages of the host to the participants that change the teams of a member. -/
inductive Message
  | removeFromTeamsRequestedAndAddTeam (member team : ℕ) (isTeamSwitch : Bool)
      (teamToLeave : Option ℕ)
  | updateTeamsRequestedToNoneAndAddTeam (member team : ℕ)
  | leaveTeam (member team : ℕ)
  | teamAssigned (member : ℕ) (teams : List ℕ)
deriving DecidableEq

/-- `onTeam` holds the members of each team, in their order. -/
structure World where
  settings : List TeamSettings
  size_le : settings.length ≤ 2 ^ 31
  balanceTeamsIsActive : Bool
  membersCount : ℕ
  onTeam : ℕ → List ℕ
  member : ℕ → Member
  sent : List Message

/-! ### Members -/

def Member.removeRequestAt (m : Member) (i : ℕ) : Member :=
  { m with
    teamsRequested := m.teamsRequested.eraseIdx i
    removedBehind := m.teamsRequested.getLast?.toList ++ m.removedBehind
    joinTeamType := if m.teamsRequested.length = 1 then .noTeam else m.joinTeamType }

def Member.removeFromRequestedTeams (m : Member) (team : ℕ) : Member :=
  match m.teamsRequested.findIdx? fun r => r.requested == team with
  | none => m
  | some i => m.removeRequestAt i

/-- `Clear` leaves an empty array; what it holds behind is not read any more. -/
def Member.updateTeamsRequestedToNone (m : Member) : Member :=
  { m with teamsRequested := [], removedBehind := [], joinTeamType := .noTeam }

/-- `teamsRequested[i]`, which may be behind the last element. -/
def Member.requestAt (m : Member) (i : ℕ) : RequestedTeam :=
  (m.teamsRequested ++ m.removedBehind).getD i default

namespace World

def setting (w : World) (team : ℕ) : TeamSettings := w.settings.getD team default

/-- `GetTeamMembersCount`. -/
def count (w : World) (team : ℕ) : ℕ := (w.onTeam team).length

def limits (w : World) : TeamLimits where
  limits := w.settings.map TeamSettings.teamMemberLimit
  size_le := by
    rw [List.length_map]
    exact w.size_le

def getBalancedTeamLimit (w : World) : Option ℕ :=
  TeamManager.getBalancedTeamLimit (w.settings.length + 1) w.balanceTeamsIsActive w.limits
    w.membersCount

/-- The variable `balancedTeamLimit` of the loops over the teams. -/
def balancedTeamLimit (w : World) : ℕ :=
  if w.balanceTeamsIsActive then w.getBalancedTeamLimit.getD 0 else 65535

def getMemberLimit (w : World) (team : ℕ) : ℕ :=
  if w.balanceTeamsIsActive = false then (w.setting team).teamMemberLimit
  else min (w.getBalancedTeamLimit.getD 0) (w.setting team).teamMemberLimit

def changeMember (w : World) (m : ℕ) (f : Member → Member) : World :=
  { w with member := Function.update w.member m (f (w.member m)) }

def broadcast (w : World) (message : Message) : World := { w with sent := w.sent ++ [message] }

def addToTeamList (w : World) (m team : ℕ) : World :=
  { w.changeMember m fun x => { x with teams := x.teams ++ [team] } with
    onTeam := Function.update w.onTeam team (w.onTeam team ++ [m]) }

/-- The first entry of the member in the list of the team, and the first of the team in its own. -/
def removeFromSpecificTeamInternal (w : World) (m team : ℕ) : World :=
  if team ∈ (w.member m).teams then
    { w.changeMember m fun x => { x with teams := x.teams.erase team } with
      onTeam := Function.update w.onTeam team ((w.onTeam team).erase m) }
  else w

def removeFromAllTeamsInternal (w : World) (m : ℕ) : World :=
  { w.changeMember m fun x => { x with teams := [] } with
    onTeam := (w.member m).teams.foldl
      (fun onTeam team => Function.update onTeam team ((onTeam team).erase m)) w.onTeam }

def removeFromTeamsRequestedAndAddTeam (w : World) (m team : ℕ) (isTeamSwitch : Bool)
    (teamToLeave : Option ℕ) : World :=
  let w' := w.changeMember m fun x => x.removeFromRequestedTeams team
  (if isTeamSwitch then
    match teamToLeave with
    | none => w'.removeFromAllTeamsInternal m
    | some left => w'.removeFromSpecificTeamInternal m left
  else w').addToTeamList m team

/-! ### The choice of a team -/

/-- The count of the team with the fewest members so far, and the team. -/
def fewerMembers (w : World) (secondaryLimit : ℕ) (joinPermission : JoinPermission)
    (lowest : ℕ × Option ℕ) (team : ℕ) : ℕ × Option ℕ :=
  if w.count team < secondaryLimit ∧ w.count team < (w.setting team).teamMemberLimit ∧
      w.count team < lowest.1 ∧ joinPermission ∈ (w.setting team).joinPermissions then
    (w.count team, some team)
  else lowest

def getAvailableTeamIndexWithFewestMembers (w : World) (secondaryLimit : ℕ)
    (joinPermission : JoinPermission) : Option ℕ :=
  ((List.range w.settings.length).foldl (w.fewerMembers secondaryLimit joinPermission)
    (4294967295, none)).2

/-- The member is on one team, and asks for `team` instead of it. -/
def requestsSingleTeamSwitch (w : World) (team m : ℕ) : Bool :=
  (w.member m).teams.length == 1 &&
    match (w.member m).teamsRequested.find? fun r => r.requested == team with
    | none => false
    | some r =>
      r.isTeamSwitch && (r.teamToLeave == none || r.teamToLeave == (w.member m).teams.head?)

def getMemberWithRequestedSingleTeamSwitch (w : World) (team left : ℕ) : Option ℕ :=
  (w.onTeam team).find? (w.requestsSingleTeamSwitch left)

inductive JoinResult
  | joined
  | full
  | locked
deriving DecidableEq

/-- Both members leave all their teams. -/
def swapMembers (w : World) (m team other left : ℕ) : World :=
  let w' := w.removeFromTeamsRequestedAndAddTeam m team true none
  let w'' := w'.removeFromTeamsRequestedAndAddTeam other left true none
  w''.broadcast (.teamAssigned other (w''.member other).teams)

def joinSpecificTeam (w : World) (m team : ℕ) (isTeamSwitch : Bool) (teamToLeave : Option ℕ)
    (teamsWeAreLeaving : List ℕ) : World × JoinResult :=
  if JoinPermission.specificTeam ∈ (w.setting team).joinPermissions then
    if w.balanceTeamsIsActive = false ∨ teamsWeAreLeaving = [] then
      if w.count team < w.getMemberLimit team then
        (w.removeFromTeamsRequestedAndAddTeam m team isTeamSwitch teamToLeave, .joined)
      else (w, .full)
    else if teamsWeAreLeaving.length = 1 then
      match w.getMemberWithRequestedSingleTeamSwitch team (teamsWeAreLeaving.headD 0) with
      | some other => (w.swapMembers m team other (teamsWeAreLeaving.headD 0), .joined)
      | none => (w, .full)
    else (w, .full)
  else (w, .locked)

/-! ### The requests in their order -/

/-- A request to join any team has no index. -/
structure JoinRequestHelper where
  whenRequestMade : ℕ
  teamMemberIndex : ℕ
  indexIntoTeamsRequested : ℕ
  requestIndex : ℕ
deriving DecidableEq

def joinRequestHelperComp (key data : JoinRequestHelper) : Ordering :=
  if key.whenRequestMade < data.whenRequestMade then .lt
  else if data.whenRequestMade < key.whenRequestMade then .gt
  else if key.requestIndex < data.requestIndex then .lt
  else if data.requestIndex < key.requestIndex then .gt
  else .eq

/-- `OrderedList::Insert`: an element that compares as equal with another one is not inserted. -/
def insertRequest (joinRequests : List JoinRequestHelper) (jrh : JoinRequestHelper) :
    List JoinRequestHelper :=
  let place := OrderedList.getIndexFromKey joinRequestHelperComp joinRequests jrh
  if place.2 then joinRequests else joinRequests.insertIdx place.1 jrh

def joinRequestsOf (w : World) (m : ℕ) : List JoinRequestHelper :=
  if (w.member m).teamsRequested = [] then
    if (w.member m).joinTeamType = .anyAvailableTeam then
      [⟨(w.member m).whenJoinAnyRequested, m, 0, (w.member m).joinAnyRequestIndex⟩]
    else []
  else
    (w.member m).teamsRequested.mapIdx fun j r => ⟨r.whenRequested, m, j, r.requestIndex⟩

def getSortedJoinRequests (w : World) : List JoinRequestHelper :=
  ((List.range w.membersCount).flatMap w.joinRequestsOf).foldl insertRequest []

/-! ### The requests are served -/

/-- The switch that a request asks for, the team that it leaves if it names one, and the teams that
it leaves. -/
def leaving (w : World) (m : ℕ) (r : RequestedTeam) : Bool × Option ℕ × List ℕ :=
  if r.isTeamSwitch then
    match r.teamToLeave with
    | some left =>
      if left ∈ (w.member m).teams then (true, some left, [left]) else (false, none, [])
    | none => (true, none, (w.member m).teams)
  else (false, none, [])

/-- Switch or join specific. -/
def serveRequest (w : World) (m : ℕ) (r : RequestedTeam) : World :=
  let (isSwitch, teamToLeave, teamsWeAreLeaving) := w.leaving m r
  match w.joinSpecificTeam m r.requested isSwitch teamToLeave teamsWeAreLeaving with
  | (w', .joined) =>
    w'.broadcast (.removeFromTeamsRequestedAndAddTeam m r.requested isSwitch teamToLeave)
  | (w', _) => w'

/-- One turn of the loop in `FillRequestedSlots`. -/
def fillSlot (balancedTeamLimit : ℕ) (w : World) (jrh : JoinRequestHelper) : World :=
  let m := jrh.teamMemberIndex
  if (w.member m).teamsRequested = [] then
    if (w.member m).joinTeamType = .anyAvailableTeam then
      match w.getAvailableTeamIndexWithFewestMembers balancedTeamLimit .anyAvailableTeam with
      | some team =>
        ((w.changeMember m Member.updateTeamsRequestedToNone).addToTeamList m team).broadcast
          (.updateTeamsRequestedToNoneAndAddTeam m team)
      | none => w
    else w
  else
    let r := (w.member m).requestAt jrh.indexIntoTeamsRequested
    if w.count r.requested < balancedTeamLimit ∧
        w.count r.requested < (w.setting r.requested).teamMemberLimit ∧
          JoinPermission.specificTeam ∈ (w.setting r.requested).joinPermissions then
      w.serveRequest m r
    else w

def fillRequestedSlots (w : World) : World :=
  w.getSortedJoinRequests.foldl (fillSlot w.balancedTeamLimit) w

/-! ### Members are kicked -/

/-- The changes that `LeaveTeam` makes itself. -/
def leaveTeamInternal (w : World) (m team : ℕ) : World :=
  ((w.removeFromSpecificTeamInternal m team).changeMember m fun x =>
    if x.teams = [] then { x with joinTeamType := .noTeam } else x).broadcast (.leaveTeam m team)

/-- `enforceTeamBalance` is what follows when the slots have been filled. -/
def leaveTeam (enforceTeamBalance : World → Option World) (w : World) (m team : ℕ) : Option World :=
  if team ∈ (w.member m).teams then
    enforceTeamBalance (w.leaveTeamInternal m team).fillRequestedSlots
  else some w

def isOverfull (balancedTeamLimit team : ℕ) (w : World) : Bool :=
  decide ((w.setting team).teamMemberLimit < w.count team) ||
    decide (balancedTeamLimit < w.count team) && (w.setting team).balancingApplies

/-- The last member of the team goes. -/
def kickMember (enforceTeamBalance : World → Option World) (balancedTeamLimit team : ℕ)
    (w : World) : Option World :=
  (w.onTeam team).getLast?.bind fun m =>
    match w.getAvailableTeamIndexWithFewestMembers balancedTeamLimit .rebalancing with
    | none => leaveTeam enforceTeamBalance w m team
    | some teamToJoin =>
      some ((w.removeFromTeamsRequestedAndAddTeam m teamToJoin true (some team)).broadcast
        (.removeFromTeamsRequestedAndAddTeam m teamToJoin true (some team)))

def kickExcessMembers : ℕ → World → Option World
  | 0, _ => none
  | fuel + 1, w =>
    (List.range w.settings.length).foldlM
      (fun w' team => whileLoop (isOverfull w.balancedTeamLimit team)
        (kickMember (kickExcessMembers fuel) w.balancedTeamLimit team) (fuel + 1) w') w

end World

end TeamManager

end SLikeNet
