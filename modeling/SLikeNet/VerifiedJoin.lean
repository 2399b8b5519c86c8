import SLikeNet.HostCalculation

/-! The verified join of `FullyConnectedMesh2`: a host, a client that joins, and the messages
between them. The user data of the messages is left out. -/

namespace SLikeNet

inductive ConnectionState
  | pending
  | connecting
  | connected
  | disconnecting
  | silentlyDisconnecting
  | disconnected
  | notConnected
deriving DecidableEq

inductive JoinInProgressState
  | processing
  | failed
  | connected
  | unnecessary
deriving DecidableEq

/-- An `AddressOrGUID` with one of the two. -/
inductive SystemIdentifier
  | systemAddress (address : ℕ)
  | rakNetGuid (guid : ℕ)
deriving DecidableEq

/-- The address is `none` where it is `UNASSIGNED_SYSTEM_ADDRESS`. -/
structure VerifiedJoinInProgressMember where
  systemAddress : Option ℕ
  guid : ℕ
  joinInProgressState : JoinInProgressState
  workingFlag : Bool
deriving DecidableEq

namespace VerifiedJoinInProgressMember

def IsSystem (member : VerifiedJoinInProgressMember) : SystemIdentifier → Bool
  | .systemAddress address => member.systemAddress = some address
  | .rakNetGuid guid => member.guid = guid

def setWorkingFlag (workingFlag : Bool) (member : VerifiedJoinInProgressMember) :
    VerifiedJoinInProgressMember :=
  { member with workingFlag := workingFlag }

def setState (state : JoinInProgressState) (member : VerifiedJoinInProgressMember) :
    VerifiedJoinInProgressMember :=
  { member with joinInProgressState := state }

end VerifiedJoinInProgressMember

/-- The `vjipMembers` of one requester. -/
abbrev VerifiedJoinInProgress := List VerifiedJoinInProgressMember

/-- What the host sends. A `START` has the participants with their addresses, and an `ACCEPTED` is
the one of the client itself. -/
inductive JoinMessage
  | start (list : List (ℕ × Option ℕ))
  | failed
  | accepted (toDisconnect toAdd : List ℕ)
  | rejected
deriving DecidableEq

namespace VerifiedJoinInProgress

open VerifiedJoinInProgressMember

/-- The list that is read after its size was written as an `unsigned short`. -/
def castSize {α : Type} (list : List α) : List α := list.take (list.length % 65536)

/-- The first member that is the system. -/
def getMember (systemIdentifier : SystemIdentifier) (vjip : VerifiedJoinInProgress) :
    Option VerifiedJoinInProgressMember :=
  vjip.find? (·.IsSystem systemIdentifier)

/-- Changes the first member that is the system. -/
def changeMember (systemIdentifier : SystemIdentifier)
    (change : VerifiedJoinInProgressMember → VerifiedJoinInProgressMember) :
    VerifiedJoinInProgress → VerifiedJoinInProgress
  | [] => []
  | member :: vjip =>
    if member.IsSystem systemIdentifier then change member :: vjip
    else member :: changeMember systemIdentifier change vjip

/-! ### The client -/

def readVerifiedJoinInProgressMember (connectionState : ℕ → ConnectionState)
    (entry : ℕ × Option ℕ) : VerifiedJoinInProgressMember where
  systemAddress := entry.2
  guid := entry.1
  joinInProgressState :=
    match connectionState entry.1 with
    | .connected => .connected
    | .disconnecting | .silentlyDisconnecting => .failed
    | _ => .processing
  workingFlag := false

/-- The members as `DecomposeJoinCapable` has them. -/
def writeVerifiedJoinCapable (vjip : VerifiedJoinInProgress) : VerifiedJoinInProgress :=
  (castSize vjip).map (setWorkingFlag false)

/-- The `CAPABLE` messages that are sent. -/
def processVerifiedJoinInProgressIfCompleted (vjip : VerifiedJoinInProgress) :
    List VerifiedJoinInProgress :=
  if vjip.any fun member => member.joinInProgressState = .processing then []
  else [writeVerifiedJoinCapable vjip]

/-- One turn of the loop over the list of a `START` for a join in progress. -/
def listMember (vjip : VerifiedJoinInProgress) (member : VerifiedJoinInProgressMember) :
    VerifiedJoinInProgress :=
  match getMember (.rakNetGuid member.guid) vjip with
  | none => vjip ++ [setWorkingFlag true member]
  | some _ => changeMember (.rakNetGuid member.guid) (setWorkingFlag true) vjip

def markUnnecessary (member : VerifiedJoinInProgressMember) : VerifiedJoinInProgressMember :=
  if member.workingFlag then member else setState .unnecessary member

/-- The server has updated the list of participants. -/
def updateList (list : List VerifiedJoinInProgressMember) (vjip : VerifiedJoinInProgress) :
    VerifiedJoinInProgress :=
  (list.foldl listMember (vjip.map (setWorkingFlag false))).map markUnnecessary

/-- The join in progress, if there is one, and the one after the `START`. -/
def onVerifiedJoinStart (connectionState : ℕ → ConnectionState) (list : List (ℕ × Option ℕ))
    (joinInProgress : Option VerifiedJoinInProgress) : VerifiedJoinInProgress :=
  let members := list.map (readVerifiedJoinInProgressMember connectionState)
  match joinInProgress with
  | none => members
  | some vjip => updateList members vjip

/-- A result is taken for a member that is processed. -/
def updateVerifiedJoinInProgressMember (systemIdentifier : SystemIdentifier)
    (newState : JoinInProgressState) (vjip : VerifiedJoinInProgress) :
    VerifiedJoinInProgress × List VerifiedJoinInProgress :=
  match getMember systemIdentifier vjip with
  | none => (vjip, [])
  | some member =>
    if member.joinInProgressState = .processing then
      let vjip' := changeMember systemIdentifier (setState newState) vjip
      (vjip', processVerifiedJoinInProgressIfCompleted vjip')
    else (vjip, [])

/-! ### The host -/

structure Categories where
  participatingMembersOnClientSucceeded : List ℕ
  participatingMembersOnClientFailed : List ℕ
  participatingMembersNotOnClient : List ℕ
  clientMembersNotParticipatingSucceeded : List ℕ
  clientMembersNotParticipatingFailed : List ℕ
deriving DecidableEq

def stateOf (guid : ℕ) (vjip : VerifiedJoinInProgress) : Option JoinInProgressState :=
  (getMember (.rakNetGuid guid) vjip).map (·.joinInProgressState)

/-- The members that are the first ones of participants are flagged. -/
def flagParticipants (participants : List ℕ) (vjip : VerifiedJoinInProgress) :
    VerifiedJoinInProgress :=
  participants.foldl
    (fun vjip guid => changeMember (.rakNetGuid guid) (setWorkingFlag true) vjip)
    (vjip.map (setWorkingFlag false))

def categorizeVJIP (participants : List ℕ) (vjip : VerifiedJoinInProgress) : Categories :=
  let others := (flagParticipants participants vjip).filter (!·.workingFlag)
  { participatingMembersOnClientSucceeded := participants.filter fun guid =>
      stateOf guid vjip ≠ none ∧ stateOf guid vjip ≠ some .failed
    participatingMembersOnClientFailed :=
      participants.filter fun guid => stateOf guid vjip = some .failed
    participatingMembersNotOnClient := participants.filter fun guid => stateOf guid vjip = none
    clientMembersNotParticipatingSucceeded :=
      (others.filter (·.joinInProgressState ≠ .failed)).map (·.guid)
    clientMembersNotParticipatingFailed :=
      (others.filter (·.joinInProgressState = .failed)).map (·.guid) }

end VerifiedJoinInProgress

namespace FullyConnectedMesh2

open VerifiedJoinInProgress

/-- A `START` with participants as it is read. -/
def verifiedJoinStart (addresses : ℕ → Option ℕ) (participants : List ℕ) : JoinMessage :=
  .start (castSize (participants.map fun guid => (guid, addresses guid)))

def startVerifiedJoin (addresses : ℕ → Option ℕ) (m : FullyConnectedMesh2) : JoinMessage :=
  verifiedJoinStart addresses m.guids

/-- What is sent to the client, and whether the user gets the packet. -/
def onVerifiedJoinCapable (addresses : ℕ → Option ℕ) (packet : VerifiedJoinInProgress)
    (m : FullyConnectedMesh2) : List JoinMessage × Bool :=
  let categories := categorizeVJIP m.guids packet
  if categories.participatingMembersOnClientFailed ≠ [] then ([.failed], false)
  else if categories.participatingMembersNotOnClient ≠ [] then
    ([verifiedJoinStart addresses categories.participatingMembersNotOnClient], false)
  else ([], true)

/-- `addParticipant` of a system that is connected. -/
def addParticipant (self rakNetGuid : ℕ) (m : FullyConnectedMesh2) : FullyConnectedMesh2 :=
  (m.addParticipantInternal self rakNetGuid 0).1

/-- What is sent to the client. The participants are told of an accepted client, which may be one of
them. -/
def respondOnVerifiedJoinCapable (self client : ℕ) (clientConnected : Bool)
    (addresses : ℕ → Option ℕ) (packet : VerifiedJoinInProgress) (accept : Bool)
    (m : FullyConnectedMesh2) : FullyConnectedMesh2 × List JoinMessage :=
  let categories := categorizeVJIP m.guids packet
  if categories.participatingMembersNotOnClient ≠ [] then
    (m, [verifiedJoinStart addresses categories.participatingMembersNotOnClient])
  else if accept then
    let accepted := JoinMessage.accepted categories.clientMembersNotParticipatingSucceeded
      categories.participatingMembersOnClientSucceeded
    (if clientConnected then m.addParticipant self client else m,
      (m.guids.filter (· = client)).map (fun _ => accepted) ++ [accepted])
  else (m, [.rejected])

end FullyConnectedMesh2

/-- A host and a client. The user of the host has the `CAPABLE` packets that it was given. -/
structure VerifiedJoin where
  host : FullyConnectedMesh2
  joinInProgress : Option VerifiedJoinInProgress
  toClient : List JoinMessage
  toHost : List VerifiedJoinInProgress
  packets : List VerifiedJoinInProgress
deriving DecidableEq

namespace VerifiedJoin

open FullyConnectedMesh2 VerifiedJoinInProgress

inductive Operation
  | startVerifiedJoin (addresses : ℕ → Option ℕ)
  | addParticipant (rakNetGuid : ℕ)
  | closedConnection (rakNetGuid : ℕ)
  | lostClient
  | capableArrives (addresses : ℕ → Option ℕ)
  | respond (clientConnected : Bool) (addresses : ℕ → Option ℕ) (index : ℕ) (accept : Bool)
  | messageArrives (connectionState : ℕ → ConnectionState)
  | connectionResult (systemIdentifier : SystemIdentifier) (succeeded : Bool)

def start : VerifiedJoin := ⟨.initial, none, [], [], []⟩

/-- What the client does with a message of the host: its join in progress, and what it sends. -/
def receive (connectionState : ℕ → ConnectionState)
    (joinInProgress : Option VerifiedJoinInProgress) :
    JoinMessage → Option VerifiedJoinInProgress × List VerifiedJoinInProgress
  | .start list =>
    let vjip := onVerifiedJoinStart connectionState list joinInProgress
    (some vjip, processVerifiedJoinInProgressIfCompleted vjip)
  | .failed | .accepted _ _ | .rejected => (none, [])

/-- The result of a connection for the member that has it. -/
def connectionResult (systemIdentifier : SystemIdentifier) (succeeded : Bool) (s : VerifiedJoin) :
    VerifiedJoin :=
  match s.joinInProgress with
  | none => s
  | some vjip =>
    let updated := updateVerifiedJoinInProgressMember systemIdentifier
      (if succeeded then .connected else .failed) vjip
    { s with joinInProgress := some updated.1, toHost := s.toHost ++ updated.2 }

/-- What is on its way is lost with the connection of the host and the client. -/
def lostClient (self client : ℕ) (s : VerifiedJoin) : VerifiedJoin :=
  { s with
    host := s.host.onClosedConnection self client
    joinInProgress := none
    toClient := []
    toHost := [] }

def capableArrives (addresses : ℕ → Option ℕ) (s : VerifiedJoin) : VerifiedJoin :=
  match s.toHost with
  | [] => s
  | packet :: toHost =>
    let result := s.host.onVerifiedJoinCapable addresses packet
    { s with
      toClient := s.toClient ++ result.1
      toHost := toHost
      packets := if result.2 then s.packets ++ [packet] else s.packets }

def messageArrives (connectionState : ℕ → ConnectionState) (s : VerifiedJoin) : VerifiedJoin :=
  match s.toClient with
  | [] => s
  | message :: toClient =>
    let received := receive connectionState s.joinInProgress message
    { s with
      joinInProgress := received.1
      toClient := toClient
      toHost := s.toHost ++ received.2 }

/-- The user answers a packet, which it may do late and more than once. -/
def respond (self client : ℕ) (clientConnected : Bool) (addresses : ℕ → Option ℕ) (index : ℕ)
    (accept : Bool) (s : VerifiedJoin) : VerifiedJoin :=
  match s.packets[index]? with
  | none => s
  | some packet =>
    let responded := s.host.respondOnVerifiedJoinCapable self client clientConnected addresses
      packet accept
    { s with host := responded.1, toClient := s.toClient ++ responded.2 }

def perform (self client : ℕ) (s : VerifiedJoin) : Operation → VerifiedJoin
  | .startVerifiedJoin addresses =>
    { s with toClient := s.toClient ++ [s.host.startVerifiedJoin addresses] }
  | .addParticipant rakNetGuid => { s with host := s.host.addParticipant self rakNetGuid }
  | .closedConnection rakNetGuid => { s with host := s.host.onClosedConnection self rakNetGuid }
  | .lostClient => s.lostClient self client
  | .capableArrives addresses => s.capableArrives addresses
  | .respond clientConnected addresses index accept =>
    s.respond self client clientConnected addresses index accept
  | .messageArrives connectionState => s.messageArrives connectionState
  | .connectionResult systemIdentifier succeeded => s.connectionResult systemIdentifier succeeded

end VerifiedJoin

end SLikeNet
