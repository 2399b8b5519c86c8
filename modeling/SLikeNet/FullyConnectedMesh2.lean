import SLikeNet.Library.LastReport
import Mathlib.Logic.Function.Basic

/-! The host calculation of `FullyConnectedMesh2`, and the systems of a mesh that run it with
automatic participation. A system is named by its `RakNetGUID`, and `none` is
`UNASSIGNED_RAKNET_GUID`. -/

namespace SLikeNet

structure FCM2Participant where
  rakNetGuid : ℕ
  fcm2Guid : ℕ
deriving DecidableEq

structure FullyConnectedMesh2 where
  ourFCMGuid : ℕ
  totalConnectionCount : ℕ
  fcm2ParticipantList : List FCM2Participant
  hostRakNetGuid : Option ℕ
  lastPushedHost : Option ℕ
deriving DecidableEq

namespace FullyConnectedMesh2

def initial : FullyConnectedMesh2 := ⟨0, 0, [], none, none⟩

/-- The messages of the host calculation. A request of a system with an `FCM2Guid` has the total
connection count and the `FCM2Guid`. -/
inductive Message
  | requestFCMGuid (remote : Option (ℕ × ℕ))
  | respondConnectionCount (responseTotalConnectionCount : ℕ)
  | informFCMGuid (fcmGuid totalConnectionCount : ℕ)
  | updateMinTotalConnectionCount (newMin : ℕ)
deriving DecidableEq

abbrev Sent := List (ℕ × Message)

def getConnectedHost (m : FullyConnectedMesh2) : Option ℕ :=
  if m.ourFCMGuid = 0 then none else m.hostRakNetGuid

def incrementTotalConnectionCount (i : ℕ) (m : FullyConnectedMesh2) : FullyConnectedMesh2 :=
  if i > m.totalConnectionCount then { m with totalConnectionCount := i } else m

/-- `randomNumber` is what is random in the lower half. -/
def assignOurFCMGuid (randomNumber : BitVec 32) (m : FullyConnectedMesh2) : FullyConnectedMesh2 :=
  { m with ourFCMGuid := m.ourFCMGuid ||| randomNumber.toNat ||| m.totalConnectionCount <<< 32 }

/-! ### What is sent -/

/-- `self` is our own `RakNetGUID`. -/
def sendFCMGuidRequest (self rakNetGuid : ℕ) (m : FullyConnectedMesh2) : Sent :=
  if rakNetGuid = self then []
  else if m.ourFCMGuid = 0 then [(rakNetGuid, .requestFCMGuid none)]
  else [(rakNetGuid, .requestFCMGuid (some (m.totalConnectionCount, m.ourFCMGuid)))]

/-- `SendOurFCMGuid` to a participant. -/
def sendOurFCMGuid (rakNetGuid : ℕ) (m : FullyConnectedMesh2) : Sent :=
  [(rakNetGuid, .informFCMGuid m.ourFCMGuid m.totalConnectionCount)]

/-- The loop over `fcm2ParticipantList` that sends our `FCM2Guid`. -/
def sendOurFCMGuidToAll (m : FullyConnectedMesh2) : Sent :=
  m.fcm2ParticipantList.flatMap fun participant => m.sendOurFCMGuid participant.rakNetGuid

/-! ### The host -/

/-- One turn of the loop in `CalculateHost`. -/
def lowerHost (lowest participant : FCM2Participant) : FCM2Participant :=
  if participant.fcm2Guid ≠ 0 ∧ participant.fcm2Guid < lowest.fcm2Guid then participant else lowest

def calculateHost (self : ℕ) (m : FullyConnectedMesh2) : FCM2Participant :=
  m.fcm2ParticipantList.foldl lowerHost ⟨self, m.ourFCMGuid⟩

def pushNewHost (guid : ℕ) (m : FullyConnectedMesh2) : FullyConnectedMesh2 :=
  { m with lastPushedHost := some guid }

def participantListComplete (m : FullyConnectedMesh2) : Bool :=
  m.fcm2ParticipantList.all fun participant => participant.fcm2Guid ≠ 0

def setHost (guid : ℕ) (m : FullyConnectedMesh2) : FullyConnectedMesh2 :=
  { m with hostRakNetGuid := some guid }

def calculateAndPushHost (self : ℕ) (m : FullyConnectedMesh2) : FullyConnectedMesh2 :=
  if m.participantListComplete then
    let newHostGuid := (m.calculateHost self).rakNetGuid
    if some newHostGuid ≠ m.lastPushedHost then (m.setHost newHostGuid).pushNewHost newHostGuid
    else m
  else m

/-! ### The participants -/

def setFCM2Guid (rakNetGuid theirFCMGuid : ℕ) (participant : FCM2Participant) : FCM2Participant :=
  if participant.rakNetGuid = rakNetGuid ∧ theirFCMGuid ≠ 0 then ⟨rakNetGuid, theirFCMGuid⟩
  else participant

def hasParticipant (rakNetGuid : ℕ) (m : FullyConnectedMesh2) : Bool :=
  m.fcm2ParticipantList.any fun participant => participant.rakNetGuid == rakNetGuid

/-- A participant has one entry. -/
def addParticipantInternal (self rakNetGuid theirFCMGuid : ℕ) (m : FullyConnectedMesh2) :
    FullyConnectedMesh2 × Sent :=
  if m.hasParticipant rakNetGuid then
    ({ m with
      fcm2ParticipantList := m.fcm2ParticipantList.map (setFCM2Guid rakNetGuid theirFCMGuid) }, [])
  else
    ({ m with
      fcm2ParticipantList := m.fcm2ParticipantList ++ [⟨rakNetGuid, theirFCMGuid⟩] },
      m.sendFCMGuidRequest self rakNetGuid)

/-- The last participant takes the place of the one at `idx`. -/
def removeParticipantAt (idx : ℕ) (list : List FCM2Participant) : List FCM2Participant :=
  match list.getLast? with
  | none => list
  | some last => (list.set idx last).dropLast

/-- The host has left. -/
def replaceHost (self : ℕ) (m : FullyConnectedMesh2) : FullyConnectedMesh2 :=
  let guid :=
    if m.fcm2ParticipantList = [] then self else (m.calculateHost self).rakNetGuid
  (m.setHost guid).pushNewHost guid

def withoutParticipant (idx : ℕ) (m : FullyConnectedMesh2) : FullyConnectedMesh2 :=
  { m with fcm2ParticipantList := removeParticipantAt idx m.fcm2ParticipantList }

/-! ### The handlers -/

def onNewConnection (self rakNetGuid : ℕ) (m : FullyConnectedMesh2) : FullyConnectedMesh2 × Sent :=
  m.addParticipantInternal self rakNetGuid 0

def onClosedConnection (self rakNetGuid : ℕ) (m : FullyConnectedMesh2) : FullyConnectedMesh2 :=
  match m.fcm2ParticipantList.findIdx? fun participant => participant.rakNetGuid == rakNetGuid with
  | none => m
  | some idx =>
    if some rakNetGuid = m.hostRakNetGuid ∧ m.ourFCMGuid ≠ 0 then
      (m.withoutParticipant idx).replaceHost self
    else m.withoutParticipant idx

/-- What `ResetHostCalculation` sets. -/
def forgetHost (m : FullyConnectedMesh2) : FullyConnectedMesh2 :=
  { m with hostRakNetGuid := none, totalConnectionCount := 0, ourFCMGuid := 0 }

def resetHostCalculation (self : ℕ) (m : FullyConnectedMesh2) : FullyConnectedMesh2 × Sent :=
  (m.forgetHost, m.fcm2ParticipantList.flatMap fun participant =>
    m.forgetHost.sendFCMGuidRequest self participant.rakNetGuid)

/-- The random number that a handler would use, and whether our runtime is above the sender's. -/
structure Choices where
  randomNumber : BitVec 32
  older : Bool

/-- What `OnRequestFCMGuid` answers after `AddParticipantInternal`. -/
def answerRequest (choices : Choices) (sender : ℕ) (remote : Option (ℕ × ℕ))
    (m : FullyConnectedMesh2) : FullyConnectedMesh2 × Sent :=
  if m.ourFCMGuid = 0 then
    match remote with
    | none => (m, [(sender, .respondConnectionCount (if choices.older then 2 else 1))])
    | some (remoteTotalConnectionCount, _) =>
      let m' := (m.incrementTotalConnectionCount
        ((remoteTotalConnectionCount + 1) % 4294967296)).assignOurFCMGuid choices.randomNumber
      (m', m'.sendOurFCMGuidToAll)
  else
    match remote with
    | none => (m, [(sender, .respondConnectionCount ((m.totalConnectionCount + 1) % 4294967296))])
    | some (remoteTotalConnectionCount, _) =>
      let m' := m.incrementTotalConnectionCount remoteTotalConnectionCount
      (m', m'.sendOurFCMGuid sender)

/-- The `FCM2Guid` in a request. -/
def theirFCMGuid (remote : Option (ℕ × ℕ)) : ℕ := (remote.map (·.2)).getD 0

def onRequestFCMGuid (self : ℕ) (choices : Choices) (sender : ℕ) (remote : Option (ℕ × ℕ))
    (m : FullyConnectedMesh2) : FullyConnectedMesh2 × Sent :=
  let added := m.addParticipantInternal self sender (theirFCMGuid remote)
  let answered := added.1.answerRequest choices sender remote
  (answered.1.calculateAndPushHost self, added.2 ++ answered.2)

def onRespondConnectionCount (self : ℕ) (choices : Choices) (responseTotalConnectionCount : ℕ)
    (m : FullyConnectedMesh2) : FullyConnectedMesh2 × Sent :=
  let m' := m.incrementTotalConnectionCount responseTotalConnectionCount
  if m.ourFCMGuid = 0 then
    let m'' := (m'.assignOurFCMGuid choices.randomNumber).incrementTotalConnectionCount 2
    (m''.calculateAndPushHost self, m''.sendOurFCMGuidToAll)
  else (m'.incrementTotalConnectionCount 2, [])

/-- The others learn of our total connection count, which a new participant may have raised. -/
def sendMinTotalConnectionCount (sender : ℕ) (m : FullyConnectedMesh2) : Sent :=
  m.fcm2ParticipantList.flatMap fun participant =>
    if sender ≠ participant.rakNetGuid then
      [(participant.rakNetGuid, .updateMinTotalConnectionCount m.totalConnectionCount)]
    else []

/-- What `OnInformFCMGuid` does for a system that has no `FCM2Guid`. -/
def assignIfNone (choices : Choices) (m : FullyConnectedMesh2) : FullyConnectedMesh2 × Sent :=
  if m.ourFCMGuid = 0 then
    (m.assignOurFCMGuid choices.randomNumber,
      (m.assignOurFCMGuid choices.randomNumber).sendOurFCMGuidToAll)
  else (m, [])

def onInformFCMGuid (self : ℕ) (choices : Choices) (sender fcmGuid totalConnectionCount : ℕ)
    (m : FullyConnectedMesh2) : FullyConnectedMesh2 × Sent :=
  let added := (m.incrementTotalConnectionCount totalConnectionCount).addParticipantInternal self
    sender fcmGuid
  let relayed := if m.hasParticipant sender then [] else added.1.sendMinTotalConnectionCount sender
  let assigned := added.1.assignIfNone choices
  (assigned.1.calculateAndPushHost self, added.2 ++ relayed ++ assigned.2)

def onReceive (self : ℕ) (choices : Choices) (sender : ℕ) :
    Message → FullyConnectedMesh2 → FullyConnectedMesh2 × Sent
  | .requestFCMGuid remote, m => m.onRequestFCMGuid self choices sender remote
  | .respondConnectionCount responseTotalConnectionCount, m =>
    m.onRespondConnectionCount self choices responseTotalConnectionCount
  | .informFCMGuid fcmGuid totalConnectionCount, m =>
    m.onInformFCMGuid self choices sender fcmGuid totalConnectionCount
  | .updateMinTotalConnectionCount newMin, m => (m.incrementTotalConnectionCount newMin, [])

end FullyConnectedMesh2

/-! ### A mesh -/

/-- One end of a connection. At a `lost` end the other one is closed, which was not noticed. -/
inductive ConnectionEnd
  | closed
  | up
  | lost
deriving DecidableEq

/-- `link a b` is the end at `a` of the connection with `b`, and `inFlight a b` are the messages
from `a` to `b`. `assigned` are the systems that have assigned an `FCM2Guid`, with it. -/
structure Mesh where
  system : ℕ → FullyConnectedMesh2
  link : ℕ → ℕ → ConnectionEnd
  inFlight : ℕ → ℕ → List FullyConnectedMesh2.Message
  assigned : List (ℕ × ℕ)

namespace Mesh

open FullyConnectedMesh2

def start : Mesh := ⟨fun _ => .initial, fun _ _ => .closed, fun _ _ => [], []⟩

/-- What the system `a` sends goes into the queues of its connections. -/
def send (s : Mesh) (a : ℕ) (sent : Sent) (b : ℕ) : List Message :=
  if s.link a b = .up then LastReport.sentTo b sent else []

/-- The system `a` takes the state of `result` and sends its messages. -/
def act (a : ℕ) (result : FullyConnectedMesh2 × Sent) (s : Mesh) : Mesh :=
  { s with
    system := Function.update s.system a result.1
    inFlight := Function.update s.inFlight a fun b => s.inFlight a b ++ s.send a result.2 b
    assigned :=
      if (s.system a).ourFCMGuid ≠ result.1.ourFCMGuid ∧ result.1.ourFCMGuid ≠ 0 then
        (a, result.1.ourFCMGuid) :: s.assigned
      else s.assigned }

def setLink (a b : ℕ) (connectionEnd : ConnectionEnd) (s : Mesh) : Mesh :=
  { s with link := Function.update s.link a (Function.update (s.link a) b connectionEnd) }

def setInFlight (a b : ℕ) (messages : List Message) (s : Mesh) : Mesh :=
  { s with inFlight := Function.update s.inFlight a (Function.update (s.inFlight a) b messages) }

/-- The system `a` has a new connection with `b`. -/
def newConnection (a b : ℕ) (s : Mesh) : Mesh :=
  (s.setLink a b .up).act a ((s.system a).onNewConnection a b)

/-- The system `a` closes its end, or learns that the other one is closed: what is on the way to it
is gone, and what is on the way to `b` once `b` has no end either. -/
def disconnect (a b : ℕ) (s : Mesh) : Mesh :=
  let s' := (s.setLink a b .closed).setInFlight b a []
  match s.link b a with
  | .closed => s'.setInFlight a b []
  | _ => s'.setLink b a .lost

def closedConnection (a b : ℕ) (s : Mesh) : Mesh :=
  (s.disconnect a b).act a ((s.system a).onClosedConnection a b, [])

def resetHostCalculation (a : ℕ) (s : Mesh) : Mesh :=
  s.act a ((s.system a).resetHostCalculation a)

/-- The oldest message from `a` arrives at `b`. -/
def deliver (choices : Choices) (a b : ℕ) (s : Mesh) : Mesh :=
  match s.inFlight a b with
  | [] => s
  | m :: rest => (s.setInFlight a b rest).act b ((s.system b).onReceive b choices a m)

inductive Operation
  | newConnection (a b : ℕ)
  | closedConnection (a b : ℕ)
  | resetHostCalculation (a : ℕ)
  | deliver (choices : Choices) (a b : ℕ)

def perform (s : Mesh) : Operation → Mesh
  | .newConnection a b => s.newConnection a b
  | .closedConnection a b => s.closedConnection a b
  | .resetHostCalculation a => s.resetHostCalculation a
  | .deliver choices a b => s.deliver choices a b

end Mesh

end SLikeNet
