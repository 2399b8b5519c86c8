import SLikeNet.Library.FuelledLoop

/-! `TeamBalancer` on the host. A step returns `none` when one of its loops does not end with the
fuel it has, or when a member that the code asserts to exist does not. `randomMT` is the sequence
of the random numbers that the host draws. -/

namespace SLikeNet

open FuelledLoop

def unassignedTeamId : ℕ := 255

structure TeamMember where
  memberGuid : ℕ
  memberId : ℕ
  currentTeam : ℕ
  requestedTeam : ℕ
deriving DecidableEq, Inhabited

inductive DefaultAssigmentAlgorithm
  | smallestTeam
  | fillInOrder
deriving DecidableEq

/-- The messages that the host sends. -/
inductive TeamNotification
  | teamAssigned (target currentTeam memberId : ℕ)
  | requestedTeamFull (target requestedTeam memberId : ℕ)
  | requestedTeamLocked (target requestedTeam : ℕ)
deriving DecidableEq

/-- `drawn` counts the random numbers that have been used. -/
structure TeamBalancer where
  defaultAssigmentAlgorithm : DefaultAssigmentAlgorithm
  forceTeamsToBeEven : Bool
  lockTeams : Bool
  teamLimits : List ℕ
  teamMemberCounts : List ℕ
  teamMembers : List TeamMember
  drawn : ℕ
  sent : List TeamNotification
deriving DecidableEq

/-- `List::RemoveAtIndexFast` moves the last element to the place of the removed one. -/
def removeAtIndexFast {α : Type*} (xs : List α) (i : ℕ) : List α :=
  match xs.getLast? with
  | none => xs
  | some last => (xs.set i last).dropLast

/-- `List::Replace` at a position that may be past the end. -/
def replaceAt {α : Type*} (xs : List α) (input filler : α) (position : ℕ) : List α :=
  if position < xs.length then xs.set position input
  else xs ++ List.replicate (position - xs.length) filler ++ [input]

/-- An `unsigned short` counter. -/
def countUp (count : ℕ) : ℕ := (count + 1) % 65536

def countDown (count : ℕ) : ℕ := (count + 65535) % 65536

namespace TeamBalancer

/-- A host whose size limits have been set, before anyone has asked for a team. -/
def start (algorithm : DefaultAssigmentAlgorithm) (teamLimits : List ℕ) : TeamBalancer where
  defaultAssigmentAlgorithm := algorithm
  forceTeamsToBeEven := false
  lockTeams := false
  teamLimits := teamLimits
  teamMemberCounts := List.replicate teamLimits.length 0
  teamMembers := []
  drawn := 0
  sent := []

def member (s : TeamBalancer) (i : ℕ) : TeamMember := s.teamMembers.getD i default

def count (s : TeamBalancer) (team : ℕ) : ℕ := s.teamMemberCounts.getD team 0

def limit (s : TeamBalancer) (team : ℕ) : ℕ := s.teamLimits.getD team 0

def getMemberIndex (s : TeamBalancer) (memberId guid : ℕ) : Option ℕ :=
  s.teamMembers.findIdx? fun m => m.memberGuid == guid && m.memberId == memberId

def notify (s : TeamBalancer) (notification : TeamNotification) : TeamBalancer :=
  { s with sent := s.sent ++ [notification] }

def notifyTeamAssigment (s : TeamBalancer) (i : ℕ) : TeamBalancer :=
  if s.teamMembers.length ≤ i then s
  else s.notify (.teamAssigned (s.member i).memberGuid (s.member i).currentTeam
    (s.member i).memberId)

/-- The index that the code returns is that of the last member, if it added one. -/
def addTeamMember (s : TeamBalancer) (tm : TeamMember) : TeamBalancer :=
  if s.teamLimits.length ≤ tm.currentTeam then s
  else
    { s with
      teamMembers := s.teamMembers ++ [tm]
      teamMemberCounts :=
        if s.teamMemberCounts.length ≤ tm.currentTeam then
          replaceAt s.teamMemberCounts 1 0 tm.currentTeam
        else s.teamMemberCounts.modify tm.currentTeam countUp }

def removeTeamMember (s : TeamBalancer) (i : ℕ) : TeamBalancer :=
  { s with
    teamMemberCounts := s.teamMemberCounts.modify (s.member i).currentTeam countDown
    teamMembers := removeAtIndexFast s.teamMembers i }

def switchMemberTeam (s : TeamBalancer) (i destinationTeam : ℕ) : TeamBalancer :=
  { s with
    teamMemberCounts := (s.teamMemberCounts.modify (s.member i).currentTeam countDown).modify
      destinationTeam countUp
    teamMembers := s.teamMembers.set i
      { s.member i with
        currentTeam := destinationTeam
        requestedTeam :=
          if (s.member i).requestedTeam = destinationTeam then unassignedTeamId
          else (s.member i).requestedTeam } }

/-- The members are read and written one after the other, so that a member may be swapped with
itself. -/
def swapTeamMembersByRequest (s : TeamBalancer) (i j : ℕ) : TeamBalancer :=
  { s with
    teamMembers :=
      (s.teamMembers.set i
        { s.member i with
          currentTeam := (s.member j).currentTeam
          requestedTeam := unassignedTeamId }).set j
        { s.member j with
          currentTeam := (s.member i).currentTeam
          requestedTeam := unassignedTeamId } }

/-! ### The choice of a team -/

def minTeamMembers (s : TeamBalancer) : ℕ := s.teamMembers.length / s.teamLimits.length

def maxTeamMembers (s : TeamBalancer) : ℕ :=
  if s.teamMembers.length % s.teamLimits.length = 0 then s.minTeamMembers
  else s.minTeamMembers + 1

def maxUnsignedLong : ℕ := 4294967295

/-- The count of the smallest team found so far, and the team. -/
def smallerTeam (s : TeamBalancer) (best : ℕ × ℕ) (team : ℕ) : ℕ × ℕ :=
  if s.count team < best.1 ∧ s.count team < s.limit team then (s.count team, team) else best

def getSmallestNonFullTeam (s : TeamBalancer) : ℕ :=
  ((List.range s.teamMemberCounts.length).foldl s.smallerTeam
    (maxUnsignedLong, unassignedTeamId)).2

def getFirstNonFullTeam (s : TeamBalancer) : ℕ :=
  ((List.range s.teamMemberCounts.length).find? fun team =>
    decide (s.count team < s.limit team)).getD unassignedTeamId

def getNextDefaultTeam (s : TeamBalancer) : ℕ :=
  match s.defaultAssigmentAlgorithm with
  | .smallestTeam => s.getSmallestNonFullTeam
  | .fillInOrder => s.getFirstNonFullTeam

def teamWouldBeOverpopulatedOnAddition (s : TeamBalancer) (team teamMemberSize : ℕ) : Bool :=
  if s.limit team ≤ s.count team then true
  else if s.forceTeamsToBeEven then
    decide (teamMemberSize / s.teamLimits.length + 1 ≤ s.count team)
  else false

/-- `teamMemberSize - 1` is unsigned. -/
def teamWouldBeUnderpopulatedOnLeave (s : TeamBalancer) (team teamMemberSize : ℕ) : Bool :=
  if s.forceTeamsToBeEven then
    decide (s.count team ≤ (teamMemberSize + maxUnsignedLong) % (maxUnsignedLong + 1) /
      s.teamLimits.length)
  else false

def teamsWouldBeEvenOnSwitch (s : TeamBalancer) (t1 t2 : ℕ) : Bool :=
  !s.teamWouldBeOverpopulatedOnAddition t1 (s.teamMembers.length - 1) &&
    !s.teamWouldBeUnderpopulatedOnLeave t2 (s.teamMembers.length - 1)

/-! ### Rebalancing -/

variable (randomMT : ℕ → ℕ)

/-- A random one of `indices`. -/
def choose (s : TeamBalancer) (indices : List ℕ) : Option ℕ :=
  indices[randomMT s.drawn % indices.length]?

def countDraw (s : TeamBalancer) : TeamBalancer := { s with drawn := s.drawn + 1 }

def getOverpopulatedTeams (s : TeamBalancer) (maxTeamSize : ℕ) : List ℕ :=
  (List.range s.teamMemberCounts.length).filter fun team => decide (maxTeamSize ≤ s.count team)

/-- The indices of the members of the source teams, those first that want to go to the target. -/
def swapIndices (s : TeamBalancer) (sourceTeamNumbers : List ℕ) (targetTeamNumber : ℕ)
    (preferred : Bool) : List ℕ :=
  sourceTeamNumbers.flatMap fun source =>
    (List.range s.teamMembers.length).filter fun i =>
      (s.member i).currentTeam == source &&
        ((s.member i).requestedTeam == targetTeamNumber) == preferred

def getMemberIndexToSwitchTeams (s : TeamBalancer) (sourceTeamNumbers : List ℕ)
    (targetTeamNumber : ℕ) : Option ℕ :=
  if s.swapIndices sourceTeamNumbers targetTeamNumber true ≠ [] then
    s.choose randomMT (s.swapIndices sourceTeamNumbers targetTeamNumber true)
  else s.choose randomMT (s.swapIndices sourceTeamNumbers targetTeamNumber false)

/-- One member moves from an overpopulated team to `team`. -/
def moveToTeam (team maxMembersOnASingleTeam : ℕ) (s : TeamBalancer) : Option TeamBalancer :=
  (s.getMemberIndexToSwitchTeams randomMT (s.getOverpopulatedTeams maxMembersOnASingleTeam)
    team).map fun i => (s.countDraw.switchMemberTeam i team).notifyTeamAssigment i

/-- The condition of the loop in `EvenTeams`. -/
def lacksMembers (team minMembersOnASingleTeam : ℕ) (s : TeamBalancer) : Bool :=
  decide (s.count team < minMembersOnASingleTeam) && decide (s.count team < s.limit team)

/-- With no team the code divides by zero. -/
def evenTeams (fuel : ℕ) (s : TeamBalancer) : Option TeamBalancer :=
  if s.teamLimits = [] then none
  else
    (List.range s.teamMemberCounts.length).foldlM
      (fun s' team => whileLoop (lacksMembers team s.minTeamMembers)
        (moveToTeam randomMT team s.maxTeamMembers) fuel s') s

/-- The loop over the members, whose counter is a `TeamId`. -/
def membersThatWantToJoin (fuel : ℕ) (s : TeamBalancer) (team : ℕ) : Option (List ℕ) :=
  countedLoop 256 s.teamMembers.length
    (fun i joining =>
      if (s.member i).requestedTeam = team then some (joining ++ [i]) else some joining) fuel 0 []

/-- The new state, and the team that the moved member was on. -/
def moveMemberThatWantsToJoinTeamInternal (fuel : ℕ) (s : TeamBalancer) (team : ℕ) :
    Option (TeamBalancer × ℕ) :=
  (s.membersThatWantToJoin fuel team).bind fun joining =>
    if joining = [] then some (s, unassignedTeamId)
    else
      (s.choose randomMT joining).map fun i =>
        ((s.countDraw.switchMemberTeam i team).notifyTeamAssigment i, (s.member i).currentTeam)

def moveMemberThatWantsToJoinTeam (fuel : ℕ) (s : TeamBalancer) (team : ℕ) :
    Option TeamBalancer :=
  ((s.moveMemberThatWantsToJoinTeamInternal randomMT fuel team).bind
    (whileLoop (fun r => decide (r.2 ≠ unassignedTeamId))
      (fun r => r.1.moveMemberThatWantsToJoinTeamInternal randomMT fuel r.2) fuel)).map Prod.fst

/-! ### What the host does -/

def setForceEvenTeams (fuel : ℕ) (force : Bool) (s : TeamBalancer) : Option TeamBalancer :=
  if s.lockTeams then some { s with forceTeamsToBeEven := force }
  else if force then evenTeams randomMT fuel { s with forceTeamsToBeEven := force }
  else some { s with forceTeamsToBeEven := force }

/-- The two members swap if each is on the team that the other wants. -/
def swapPair (s : TeamBalancer) (i j : ℕ) : TeamBalancer :=
  if (s.member j).requestedTeam = (s.member i).currentTeam ∧
      (s.member i).requestedTeam = (s.member j).currentTeam then
    ((s.swapTeamMembersByRequest i j).notifyTeamAssigment i).notifyTeamAssigment j
  else s

/-- The loops over the members, whose counters are `TeamId`s. -/
def processSwaps (fuel : ℕ) (s : TeamBalancer) : Option TeamBalancer :=
  countedLoop 256 s.teamMembers.length
    (fun i s' =>
      if (s'.member i).requestedTeam = unassignedTeamId then some s'
      else countedLoop 256 s.teamMembers.length (fun j s'' => some (s''.swapPair i j)) fuel
        ((i + 1) % 256) s') fuel 0 s

def moveIfNotFull (i : ℕ) (s : TeamBalancer) : TeamBalancer :=
  if (s.member i).requestedTeam ≠ unassignedTeamId ∧
      s.count (s.member i).requestedTeam < s.limit (s.member i).requestedTeam then
    (s.switchMemberTeam i (s.member i).requestedTeam).notifyTeamAssigment i
  else s

def processRequests (fuel : ℕ) (s : TeamBalancer) : Option TeamBalancer :=
  countedLoop 256 s.teamMembers.length (fun i s' => some (s'.moveIfNotFull i)) fuel 0 s

def setLockTeams (fuel : ℕ) (lock : Bool) (s : TeamBalancer) : Option TeamBalancer :=
  if lock = s.lockTeams then some s
  else if lock then some { s with lockTeams := lock }
  else
    (processSwaps fuel { s with lockTeams := lock }).bind fun s' =>
      if s'.forceTeamsToBeEven then evenTeams randomMT fuel s' else processRequests fuel s'

def deleteMember (memberId : ℕ) (s : TeamBalancer) : TeamBalancer :=
  match s.teamMembers.findIdx? fun m => m.memberId == memberId with
  | none => s
  | some i => s.removeTeamMember i

/-- What follows the removal of a member that was on `droppedTeam`. -/
def afterDrop (fuel droppedTeam : ℕ) (s : TeamBalancer) : Option TeamBalancer :=
  if s.lockTeams then some s
  else if s.forceTeamsToBeEven then evenTeams randomMT fuel s
  else if s.count droppedTeam + 1 = s.limit droppedTeam then
    s.moveMemberThatWantsToJoinTeam randomMT fuel droppedTeam
  else some s

/-- One turn of the loop in `RemoveByGuid`: the state and the index. -/
def dropAt (fuel guid : ℕ) (r : TeamBalancer × ℕ) : Option (TeamBalancer × ℕ) :=
  if (r.1.member r.2).memberGuid = guid then
    (afterDrop randomMT fuel (r.1.member r.2).currentTeam (r.1.removeTeamMember r.2)).map
      fun s => (s, r.2)
  else some (r.1, r.2 + 1)

def removeByGuid (fuel guid : ℕ) (s : TeamBalancer) : Option TeamBalancer :=
  (whileLoop (fun r => decide (r.2 < r.1.teamMembers.length)) (dropAt randomMT fuel guid) fuel
    (s, 0)).map Prod.fst

def onCancelTeamRequest (guid memberId : ℕ) (s : TeamBalancer) : TeamBalancer :=
  match s.getMemberIndex memberId guid with
  | none => s
  | some i =>
    { s with
      teamMembers := s.teamMembers.set i { s.member i with requestedTeam := unassignedTeamId } }

/-- A member that has no team yet joins one. -/
def join (s : TeamBalancer) (tm : TeamMember) : TeamBalancer :=
  if tm.currentTeam = unassignedTeamId then s
  else (s.addTeamMember tm).notifyTeamAssigment s.teamMembers.length

def onRequestAnyTeam (guid memberId : ℕ) (s : TeamBalancer) : TeamBalancer :=
  match s.getMemberIndex memberId guid with
  | none => s.join ⟨guid, memberId, s.getNextDefaultTeam, unassignedTeamId⟩
  | some _ => s

/-- The first member that is on `desiredTeam` and wants to go to `oldTeam`. -/
def swappableMemberIndex (s : TeamBalancer) (desiredTeam oldTeam : ℕ) : Option ℕ :=
  s.teamMembers.findIdx? fun m => m.currentTeam == desiredTeam && m.requestedTeam == oldTeam

def recordRequest (s : TeamBalancer) (i desiredTeam : ℕ) : TeamBalancer :=
  { s with teamMembers := s.teamMembers.set i { s.member i with requestedTeam := desiredTeam } }

/-- The member at `i`, whose request has been recorded, switches, swaps or waits. -/
def switchOrSwap (i desiredTeam : ℕ) (s : TeamBalancer) : TeamBalancer :=
  if s.teamsWouldBeEvenOnSwitch desiredTeam (s.member i).currentTeam then
    (s.switchMemberTeam i desiredTeam).notifyTeamAssigment i
  else
    match s.swappableMemberIndex desiredTeam (s.member i).currentTeam with
    | some j => ((s.swapTeamMembersByRequest i j).notifyTeamAssigment i).notifyTeamAssigment j
    | none => s.notify (.requestedTeamFull (s.member i).memberGuid desiredTeam
        (s.member i).memberId)

/-- The request of a member that has no team yet. -/
def joinSpecific (guid memberId desiredTeam : ℕ) (s : TeamBalancer) : TeamBalancer :=
  if s.teamWouldBeOverpopulatedOnAddition desiredTeam s.teamMembers.length then
    s.join ⟨guid, memberId, s.getNextDefaultTeam, desiredTeam⟩
  else s.join ⟨guid, memberId, desiredTeam, unassignedTeamId⟩

def onRequestSpecificTeam (guid memberId desiredTeam : ℕ) (s : TeamBalancer) : TeamBalancer :=
  if desiredTeam = unassignedTeamId then
    match s.getMemberIndex memberId guid with
    | none => s.notify (.teamAssigned guid unassignedTeamId memberId)
    | some i => (s.notify (.teamAssigned guid unassignedTeamId memberId)).removeTeamMember i
  else if s.teamLimits.length ≤ desiredTeam then s
  else
    match s.getMemberIndex memberId guid with
    | none => s.joinSpecific guid memberId desiredTeam
    | some i =>
      if s.lockTeams then
        (s.recordRequest i desiredTeam).notify (.requestedTeamLocked guid desiredTeam)
      else (s.recordRequest i desiredTeam).switchOrSwap i desiredTeam

inductive Operation
  | setForceEvenTeams (force : Bool)
  | setLockTeams (lock : Bool)
  | deleteMember (memberId : ℕ)
  | cancelTeamRequest (guid memberId : ℕ)
  | requestAnyTeam (guid memberId : ℕ)
  | requestSpecificTeam (guid memberId desiredTeam : ℕ)
  | closedConnection (guid : ℕ)
deriving DecidableEq

def perform (fuel : ℕ) (s : TeamBalancer) : Operation → Option TeamBalancer
  | .setForceEvenTeams force => setForceEvenTeams randomMT fuel force s
  | .setLockTeams lock => setLockTeams randomMT fuel lock s
  | .deleteMember memberId => some (deleteMember memberId s)
  | .cancelTeamRequest guid memberId => some (onCancelTeamRequest guid memberId s)
  | .requestAnyTeam guid memberId => some (onRequestAnyTeam guid memberId s)
  | .requestSpecificTeam guid memberId desiredTeam =>
    some (onRequestSpecificTeam guid memberId desiredTeam s)
  | .closedConnection guid => removeByGuid randomMT fuel guid s

/-- The operation ends in `s'`. -/
def Performs (s : TeamBalancer) (op : Operation) (s' : TeamBalancer) : Prop :=
  ∃ fuel, perform randomMT fuel s op = some s'

end TeamBalancer

end SLikeNet
