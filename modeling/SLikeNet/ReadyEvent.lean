import SLikeNet.Library.LastReport
import Mathlib.Logic.Function.Basic

/-! One event of `ReadyEvent` on two systems, with reliable ordered messages between them. Other
systems may be in the wait lists too; what they send is an input. -/

namespace SLikeNet

namespace ReadyEvent

/-- `ID_READY_EVENT_UNSET`, `ID_READY_EVENT_SET` and `ID_READY_EVENT_ALL_SET` -/
inductive Status
  | unset
  | set
  | allSet
deriving DecidableEq

inductive Message
  | query
  | update (status : Status)
deriving DecidableEq

structure RemoteSystem where
  rakNetGuid : ℕ
  lastReceivedStatus : Status
  lastSentStatus : Status
deriving DecidableEq

/-- A guid has one entry in `systemList`. -/
structure ReadyEventNode where
  eventStatus : Status
  systemList : List RemoteSystem
deriving DecidableEq

/-- The messages that a call sends, with their receivers. -/
abbrev Sent := List (ℕ × Message)

/-! ### Status updates -/

def sendReadyUpdate (eventStatus : Status) (forceIfNotDefault : Bool) (rs : RemoteSystem) :
    RemoteSystem × Sent :=
  if eventStatus ≠ rs.lastSentStatus ∨ (forceIfNotDefault = true ∧ eventStatus ≠ .unset) then
    ({ rs with lastSentStatus := eventStatus }, [(rs.rakNetGuid, .update eventStatus)])
  else (rs, [])

namespace ReadyEventNode

def find (guid : ℕ) (ren : ReadyEventNode) : Option RemoteSystem :=
  ren.systemList.find? fun rs => rs.rakNetGuid == guid

def broadcastReadyUpdate (ren : ReadyEventNode) : ReadyEventNode × Sent :=
  (⟨ren.eventStatus, ren.systemList.map fun rs => (sendReadyUpdate ren.eventStatus false rs).1⟩,
    ren.systemList.flatMap fun rs => (sendReadyUpdate ren.eventStatus false rs).2)

def anyUnset (ren : ReadyEventNode) : Bool :=
  ren.systemList.any fun rs => rs.lastReceivedStatus == .unset

def readyStatus (ren : ReadyEventNode) : Status :=
  match ren.eventStatus with
  | .set => if ren.anyUnset then .set else .allSet
  | .allSet => if ren.anyUnset then .set else .allSet
  | .unset => .unset

def updateReadyStatus (ren : ReadyEventNode) : ReadyEventNode × Sent :=
  broadcastReadyUpdate ⟨ren.readyStatus, ren.systemList⟩

/-- The node, what was sent and `numAdded`. -/
def addToWaitListInternal (r : ReadyEventNode × Sent × ℕ) (guid : ℕ) :
    ReadyEventNode × Sent × ℕ :=
  if (r.1.find guid).isSome then r
  else
    (⟨r.1.eventStatus, ⟨guid, .unset, .unset⟩ :: r.1.systemList⟩, r.2.1 ++ [(guid, .query)],
      r.2.2 + 1)

def setReceived (sender : ℕ) (status : Status) (ren : ReadyEventNode) : ReadyEventNode :=
  ⟨ren.eventStatus, ren.systemList.map fun rs =>
    if rs.rakNetGuid = sender then { rs with lastReceivedStatus := status } else rs⟩

/-- `SendReadyUpdate` with `forceIfNotDefault` to the system with that guid. -/
def forceReadyUpdate (guid : ℕ) (ren : ReadyEventNode) : ReadyEventNode × Sent :=
  (⟨ren.eventStatus, ren.systemList.map fun rs =>
    if rs.rakNetGuid = guid then (sendReadyUpdate ren.eventStatus true rs).1 else rs⟩,
    ren.systemList.flatMap fun rs =>
      if rs.rakNetGuid = guid then (sendReadyUpdate ren.eventStatus true rs).2 else [])

end ReadyEventNode

open ReadyEventNode

/-- The event of a system, if it has it. -/
abbrev Event := Option ReadyEventNode

/-- The event afterwards, with what was sent. -/
def kept (r : ReadyEventNode × Sent) : Event × Sent := (some r.1, r.2)

/-- `SetEvent`, and `SetEventByIndex` where the event exists. -/
def setEvent (isReady : Bool) : Event → Event × Sent
  | none => (some ⟨if isReady then .set else .unset, []⟩, [])
  | some ren =>
    if isReady = true ∧ ren.eventStatus ≠ .unset then (some ren, [])
    else if isReady = false ∧ ren.eventStatus = .unset then (some ren, [])
    else kept (updateReadyStatus ⟨if isReady then .set else .unset, ren.systemList⟩)

def deleteEvent (_ : Event) : Event × Sent := (none, [])

/-- The node of the event, which `CreateNewEvent` makes where there is none. -/
def nodeOf (event : Event) : ReadyEventNode := event.getD ⟨.unset, []⟩

/-- `AddToWaitList`. `guids` is the guid, or those of all connected systems for
`UNASSIGNED_RAKNET_GUID`. -/
def addToWaitList (guids : List ℕ) (event : Event) : Event × Sent :=
  let r := guids.foldl addToWaitListInternal (nodeOf event, [], 0)
  if 0 < r.2.2 then (some (updateReadyStatus r.1).1, r.2.1 ++ (updateReadyStatus r.1).2)
  else (some r.1, r.2.1)

/-- `RemoveFromWaitList`; `none` is `UNASSIGNED_RAKNET_GUID`. -/
def removeFromWaitList : Option ℕ → Event → Event × Sent
  | _, none => (none, [])
  | none, some ren => kept (updateReadyStatus ⟨ren.eventStatus, []⟩)
  | some guid, some ren =>
    if (ren.find guid).isSome then
      kept (updateReadyStatus
        ⟨ren.eventStatus, ren.systemList.filter fun rs => rs.rakNetGuid ≠ guid⟩)
    else (some ren, [])

def onReadyEventPacketUpdate (sender : ℕ) (status : Status) : Event → Event × Sent
  | none => (none, [])
  | some ren =>
    match ren.find sender with
    | none => (some ren, [])
    | some rs =>
      if rs.lastReceivedStatus = status then (some ren, [])
      else kept (updateReadyStatus (ren.setReceived sender status))

def onReadyEventQuery (sender : ℕ) : Event → Event × Sent
  | none => (none, [])
  | some ren => kept (ren.forceReadyUpdate sender)

def onReceive (sender : ℕ) : Message → Event → Event × Sent
  | .query => onReadyEventQuery sender
  | .update status => onReadyEventPacketUpdate sender status

/-! ### Two systems -/

/-- The guids of the two systems. -/
def guidOf (b : Bool) : ℕ := b.toNat

/-- `inFlight b` are the messages from the system `b` to the other one. -/
structure Systems where
  event : Bool → Event
  inFlight : Bool → List Message

def start : Systems := ⟨fun _ => none, fun _ => []⟩

/-- What goes to the system `p`. -/
def toPeer (p : Bool) (sent : Sent) : List Message := LastReport.sentTo (guidOf p) sent

namespace Systems

def act (b : Bool) (call : Event → Event × Sent) (s : Systems) : Systems :=
  ⟨Function.update s.event b (call (s.event b)).1,
    Function.update s.inFlight b (s.inFlight b ++ toPeer (!b) (call (s.event b)).2)⟩

/-- The oldest message to the system `b` arrives. -/
def deliver (b : Bool) (s : Systems) : Systems :=
  match s.inFlight (!b) with
  | [] => s
  | m :: rest =>
    act b (onReceive (guidOf (!b)) m) ⟨s.event, Function.update s.inFlight (!b) rest⟩

inductive Operation
  | setEvent (isReady : Bool)
  | deleteEvent
  | addToWaitList (guids : List ℕ)
  | removeFromWaitList (guid : Option ℕ)
  | receiveOther (sender : ℕ) (message : Message)
  | deliver

/-- The system `b` does something, or gets a message. -/
def perform (s : Systems) (b : Bool) : Operation → Systems
  | .setEvent isReady => s.act b (ReadyEvent.setEvent isReady)
  | .deleteEvent => s.act b ReadyEvent.deleteEvent
  | .addToWaitList guids => s.act b (ReadyEvent.addToWaitList guids)
  | .removeFromWaitList guid => s.act b (ReadyEvent.removeFromWaitList guid)
  | .receiveOther sender message => s.act b (onReceive sender message)
  | .deliver => s.deliver b

end Systems

end ReadyEvent

end SLikeNet
