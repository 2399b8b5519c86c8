import Mathlib.Algebra.Group.Nat.Defs
import SLikeNet.OrderedList
import SLikeNet.Library.IncidenceLists

/-! `NatPunchthroughServer`: the users that are connected, the attempts to connect them with each
other and what the server tells them. What is read through a pointer to memory that was given back
has no value. -/

namespace SLikeNet

/-- A pointer to a user, with the guid that the user has as long as it exists. -/
structure UserPointer (G : Type) where
  guid : G
  address : ℕ
  deriving DecidableEq

inductive AttemptPhase where
  | notStarted
  | gettingRecentPorts
  deriving DecidableEq

structure ConnectionAttempt (G : Type) where
  sender : UserPointer G
  recipient : UserPointer G
  sessionId : ℕ
  startTime : ℕ := 0
  attemptPhase : AttemptPhase := .notStarted

/-- The other side of an attempt: its recipient if the user is its sender, else its sender. -/
def ConnectionAttempt.other {G : Type} [DecidableEq G] (connectionAttempt : ConnectionAttempt G)
    (user : UserPointer G) : UserPointer G :=
  if connectionAttempt.sender = user then connectionAttempt.recipient else connectionAttempt.sender

structure NatUser where
  mostRecentPort : ℕ := 0
  isReady : Bool := true
  connectionAttempts : List ℕ := []

/-- The messages of the server to a user. -/
inductive NatMessage (G : Type) where
  | targetNotConnected (recipientGuid : G)
  | alreadyInProgress (recipientGuid : G)
  | getMostRecentPort (sessionId : ℕ)
  | connectAtTime (time sessionId port : ℕ) (guid : G) (isSender : Bool)
  | targetUnresponsive (guid : G) (sessionId : ℕ)
  | connectionToTargetLost (guid : G) (sessionId : ℕ)
  deriving DecidableEq

structure NatPunchthroughServer (G : Type) where
  users : List (UserPointer G)
  user : UserPointer G → Option NatUser
  attempt : ℕ → Option (ConnectionAttempt G)
  nextUser : ℕ
  nextAttempt : ℕ
  sessionId : ℕ
  lastUpdate : ℕ
  sent : List (UserPointer G × NatMessage G)

namespace NatPunchthroughServer

variable {G : Type}

def initial : NatPunchthroughServer G where
  users := []
  user _ := none
  attempt _ := none
  nextUser := 0
  nextAttempt := 0
  sessionId := 0
  lastUpdate := 0
  sent := []

def send (s : NatPunchthroughServer G) (receiver : UserPointer G)
    (message : NatMessage G) : NatPunchthroughServer G :=
  { s with sent := s.sent ++ [(receiver, message)] }

variable [DecidableEq G]

def setUser (s : NatPunchthroughServer G) (p : UserPointer G) (user : Option NatUser) :
    NatPunchthroughServer G :=
  { s with user := Function.update s.user p user }

def setAttempt (s : NatPunchthroughServer G) (a : ℕ) (attempt : Option (ConnectionAttempt G)) :
    NatPunchthroughServer G :=
  { s with attempt := Function.update s.attempt a attempt }

def modifyUser (s : NatPunchthroughServer G) (p : UserPointer G) (f : NatUser → NatUser) :
    Option (NatPunchthroughServer G) := do
  let user ← s.user p
  some (s.setUser p (some (f user)))

def setReady (s : NatPunchthroughServer G) (p : UserPointer G) (isReady : Bool) :
    Option (NatPunchthroughServer G) :=
  s.modifyUser p fun user => { user with isReady }

/-- `User::DerefConnectionAttempt` -/
def derefConnectionAttempt (s : NatPunchthroughServer G) (p : UserPointer G) (a : ℕ) :
    Option (NatPunchthroughServer G) :=
  s.modifyUser p fun user => { user with connectionAttempts := user.connectionAttempts.erase a }

/-- `User::DeleteConnectionAttempt` -/
def deleteConnectionAttempt (s : NatPunchthroughServer G) (p : UserPointer G) (a : ℕ) :
    Option (NatPunchthroughServer G) := do
  let user ← s.user p
  if a ∈ user.connectionAttempts then
    let _ ← s.attempt a
    (s.setAttempt a none).derefConnectionAttempt p a
  else some s

/-- `User::HasConnectionAttemptToUser` -/
def hasConnectionAttemptToUser (s : NatPunchthroughServer G) (other : UserPointer G) :
    List ℕ → Option Bool
  | [] => some false
  | a :: connectionAttempts => do
    let connectionAttempt ← s.attempt a
    let _ ← s.user connectionAttempt.recipient
    if connectionAttempt.recipient.guid = other.guid then some true
    else
      let _ ← s.user connectionAttempt.sender
      if connectionAttempt.sender.guid = other.guid then some true
      else s.hasConnectionAttemptToUser other connectionAttempts

/-- What `StartPunchthroughForUser` does with the attempt that it starts. -/
def startAttempt (s : NatPunchthroughServer G) (a : ℕ) (sender recipient : UserPointer G)
    (time : ℕ) : Option (NatPunchthroughServer G) := do
  let s ← s.setReady sender false
  let s ← s.setReady recipient false
  let connectionAttempt ← s.attempt a
  let s := s.setAttempt a <| some
    { connectionAttempt with attemptPhase := .gettingRecentPorts, startTime := time }
  let s ← s.modifyUser sender fun user => { user with mostRecentPort := 0 }
  let s ← s.modifyUser recipient fun user => { user with mostRecentPort := 0 }
  some ((s.send sender (.getMostRecentPort connectionAttempt.sessionId)).send recipient
    (.getMostRecentPort connectionAttempt.sessionId))

/-- The loop of `StartPunchthroughForUser` over the attempts of the user. -/
def startLoop (s : NatPunchthroughServer G) (user : UserPointer G) (time : ℕ) :
    List ℕ → Option (NatPunchthroughServer G)
  | [] => some s
  | a :: connectionAttempts => do
    let connectionAttempt ← s.attempt a
    let (sender, recipient) := if connectionAttempt.sender = user
      then (user, connectionAttempt.recipient) else (connectionAttempt.sender, user)
    let otherUser ← s.user (connectionAttempt.other user)
    if otherUser.isReady then s.startAttempt a sender recipient time
    else s.startLoop user time connectionAttempts

def startPunchthroughForUser (s : NatPunchthroughServer G) (p : UserPointer G) (time : ℕ) :
    Option (NatPunchthroughServer G) := do
  let user ← s.user p
  if user.isReady then s.startLoop p time user.connectionAttempts else some s

section Users

variable [Ord G]

/-- `NatPunchthroughUserComp` -/
def natPunchthroughUserComp (key : G) (data : UserPointer G) : Ordering :=
  compare key data.guid

/-- `users.GetIndexFromKey` -/
def findUser (s : NatPunchthroughServer G) (guid : G) : Option (ℕ × UserPointer G) :=
  let (index, objectExists) := OrderedList.getIndexFromKey natPunchthroughUserComp s.users guid
  if objectExists then s.users[index]?.map fun p => (index, p) else none

/-- A user with a guid that is there already stays outside the list. -/
def onNewConnection (s : NatPunchthroughServer G) (guid : G) : NatPunchthroughServer G :=
  let p : UserPointer G := ⟨guid, s.nextUser⟩
  let s := { s.setUser p (some {}) with nextUser := s.nextUser + 1 }
  { s with users :=
      OrderedList.insert (fun a b => natPunchthroughUserComp a.guid b) s.users p }

/-- What `OnNATPunchthroughRequest` does when the recipient is connected. That the sender and the
recipient are the same is asked only while the recipient is still a null pointer. -/
def addAttempt (s : NatPunchthroughServer G) (sender recipient : UserPointer G)
    (recipientGuid : G) (sessionId time : ℕ) : Option (NatPunchthroughServer G) := do
  let theirs ← s.user recipient
  let isInProgress ← s.hasConnectionAttemptToUser sender theirs.connectionAttempts
  if isInProgress then some (s.send sender (.alreadyInProgress recipientGuid))
  else
    let a := s.nextAttempt
    let s := { s.setAttempt a (some { sender, recipient, sessionId }) with nextAttempt := a + 1 }
    let s ← s.modifyUser sender fun user =>
      { user with connectionAttempts := user.connectionAttempts ++ [a] }
    let s ← s.modifyUser recipient fun user =>
      { user with connectionAttempts := user.connectionAttempts ++ [a] }
    s.startPunchthroughForUser sender time

/-- The request is of a user that is connected, as the source asserts. -/
def onNATPunchthroughRequest (s : NatPunchthroughServer G) (senderGuid recipientGuid : G)
    (time : ℕ) : Option (NatPunchthroughServer G) :=
  match s.findUser senderGuid with
  | none => none
  | some (_, sender) =>
    let s' := { s with sessionId := (s.sessionId + 1) % 2 ^ 16 }
    match s.findUser recipientGuid with
    | none => some (s'.send sender (.targetNotConnected recipientGuid))
    | some (_, recipient) => s'.addAttempt sender recipient recipientGuid s.sessionId time

def onClientReady (s : NatPunchthroughServer G) (guid : G) (time : ℕ) :
    Option (NatPunchthroughServer G) :=
  match s.findUser guid with
  | none => some s
  | some (_, p) => do
    let s ← s.setReady p true
    s.startPunchthroughForUser p time

/-- A time far enough in the future that both systems will have gotten the message. A ping that
is not known is none. -/
def simultaneousAttemptTime (time : ℕ) : Option ℕ → Option ℕ → ℕ
  | some targetPing, some senderPing =>
    if max targetPing senderPing * 4 < 100 then time + 100
    else time + max targetPing senderPing * 4
  | _, _ => time + 1500

/-- Both are told to connect, and the attempt is over. -/
def connect (s : NatPunchthroughServer G) (a : ℕ) (connectionAttempt : ConnectionAttempt G)
    (attemptTime : ℕ) : Option (NatPunchthroughServer G) := do
  let sender ← s.user connectionAttempt.sender
  let recipient ← s.user connectionAttempt.recipient
  let s := s.send connectionAttempt.recipient
    (.connectAtTime attemptTime connectionAttempt.sessionId sender.mostRecentPort
      connectionAttempt.sender.guid false)
  let s := s.send connectionAttempt.sender
    (.connectAtTime attemptTime connectionAttempt.sessionId recipient.mostRecentPort
      connectionAttempt.recipient.guid true)
  let s ← s.derefConnectionAttempt connectionAttempt.recipient a
  s.deleteConnectionAttempt connectionAttempt.sender a

/-- The loop of `OnGetMostRecentPort` over the attempts of the user. -/
def connectLoop (s : NatPunchthroughServer G) (sessionId attemptTime : ℕ) :
    List ℕ → Option (NatPunchthroughServer G)
  | [] => some s
  | a :: connectionAttempts => do
    let connectionAttempt ← s.attempt a
    let sender ← s.user connectionAttempt.sender
    let recipient ← s.user connectionAttempt.recipient
    if connectionAttempt.attemptPhase = .gettingRecentPorts ∧ sender.mostRecentPort ≠ 0 ∧
        recipient.mostRecentPort ≠ 0 ∧ connectionAttempt.sessionId = sessionId then
      s.connect a connectionAttempt attemptTime
    else s.connectLoop sessionId attemptTime connectionAttempts

def onGetMostRecentPort (s : NatPunchthroughServer G) (guid : G)
    (sessionId mostRecentPort time : ℕ) (targetPing senderPing : Option ℕ) :
    Option (NatPunchthroughServer G) :=
  match s.findUser guid with
  | none => some s
  | some (_, p) => do
    let s ← s.modifyUser p fun user => { user with mostRecentPort }
    let user ← s.user p
    s.connectLoop sessionId (simultaneousAttemptTime time targetPing senderPing)
      user.connectionAttempts

/-- What `Update` does with an attempt that got no ports for too long. -/
def giveUp (s : NatPunchthroughServer G) (user : UserPointer G) (a : ℕ)
    (connectionAttempt : ConnectionAttempt G) (time : ℕ) : Option (NatPunchthroughServer G) := do
  let recipient := connectionAttempt.recipient
  let _ ← s.user connectionAttempt.sender
  let _ ← s.user recipient
  let s := s.send connectionAttempt.sender
    (.targetUnresponsive recipient.guid connectionAttempt.sessionId)
  let s := s.send recipient
    (.targetUnresponsive connectionAttempt.sender.guid connectionAttempt.sessionId)
  let s ← s.setReady connectionAttempt.sender true
  let s ← s.setReady recipient true
  let s ← s.derefConnectionAttempt connectionAttempt.sender a
  let s ← s.deleteConnectionAttempt recipient a
  let s ← s.startPunchthroughForUser user time
  s.startPunchthroughForUser recipient time

/-- The loop of `Update` over the attempts of a user. -/
def updateAttempts (s : NatPunchthroughServer G) (user : UserPointer G) (time : ℕ) :
    List ℕ → Option (NatPunchthroughServer G)
  | [] => some s
  | a :: connectionAttempts => do
    let connectionAttempt ← s.attempt a
    if connectionAttempt.sender = user ∧ connectionAttempt.attemptPhase ≠ .notStarted ∧
        connectionAttempt.startTime < time ∧ 10000 + connectionAttempt.startTime < time then
      s.giveUp user a connectionAttempt time
    else s.updateAttempts user time connectionAttempts

def updateUser (time : ℕ) (s : NatPunchthroughServer G) (p : UserPointer G) :
    Option (NatPunchthroughServer G) := do
  let user ← s.user p
  s.updateAttempts p time user.connectionAttempts

def update (s : NatPunchthroughServer G) (time : ℕ) : Option (NatPunchthroughServer G) :=
  if s.lastUpdate + 250 < time then
    s.users.foldlM (updateUser time) { s with lastUpdate := time }
  else some s

/-- The other user of an attempt in progress is ready again. -/
def freeUser (s : NatPunchthroughServer G) (attemptPhase : AttemptPhase)
    (otherUser : UserPointer G) (freedUpInProgressUsers : List (UserPointer G)) :
    Option (NatPunchthroughServer G × List (UserPointer G)) :=
  match attemptPhase with
  | .gettingRecentPorts => do
    let s ← s.setReady otherUser true
    some (s, freedUpInProgressUsers ++ [otherUser])
  | .notStarted => some (s, freedUpInProgressUsers)

/-- The loop of `OnClosedConnection` over the attempts of the user, with the users that are
freed of an attempt in progress. The list of the user does not grow, so its length bounds the
steps; the pointers to the other users' attempts are left in it. -/
def closeLoop (p : UserPointer G) : ℕ → NatPunchthroughServer G → List (UserPointer G) → ℕ →
    Option (NatPunchthroughServer G × List (UserPointer G))
  | 0, s, freedUpInProgressUsers, _ => some (s, freedUpInProgressUsers)
  | fuel + 1, s, freedUpInProgressUsers, connectionAttemptIndex => do
    let user ← s.user p
    match user.connectionAttempts[connectionAttemptIndex]? with
    | none => some (s, freedUpInProgressUsers)
    | some a =>
      let connectionAttempt ← s.attempt a
      let otherUser := if connectionAttempt.recipient = p then connectionAttempt.sender
        else connectionAttempt.recipient
      let _ ← s.user otherUser
      let s := s.send otherUser (.connectionToTargetLost p.guid connectionAttempt.sessionId)
      let (s, freedUpInProgressUsers) ← s.freeUser connectionAttempt.attemptPhase otherUser
        freedUpInProgressUsers
      let s ← s.deleteConnectionAttempt otherUser a
      closeLoop p fuel s freedUpInProgressUsers (connectionAttemptIndex + 1)

def onClosedConnection (s : NatPunchthroughServer G) (guid : G) (time : ℕ) :
    Option (NatPunchthroughServer G) :=
  match s.findUser guid with
  | none => some s
  | some (i, p) => do
    let user ← s.user p
    let (s, freedUpInProgressUsers) ← closeLoop p (user.connectionAttempts.length + 1) s [] 0
    let s := { s.setUser p none with users := s.users.eraseIdx i }
    freedUpInProgressUsers.foldlM (fun s p => s.startPunchthroughForUser p time) s

/-- What happens to the server, with the time at which it happens. -/
inductive Operation (G : Type) where
  | newConnection (guid : G)
  | closedConnection (guid : G) (time : ℕ)
  | natPunchthroughRequest (senderGuid recipientGuid : G) (time : ℕ)
  | clientReady (guid : G) (time : ℕ)
  | getMostRecentPort (guid : G) (sessionId mostRecentPort time : ℕ)
      (targetPing senderPing : Option ℕ)
  | update (time : ℕ)

def perform (s : NatPunchthroughServer G) : Operation G → Option (NatPunchthroughServer G)
  | .newConnection guid => some (s.onNewConnection guid)
  | .closedConnection guid time => s.onClosedConnection guid time
  | .natPunchthroughRequest senderGuid recipientGuid time =>
    s.onNATPunchthroughRequest senderGuid recipientGuid time
  | .clientReady guid time => s.onClientReady guid time
  | .getMostRecentPort guid sessionId mostRecentPort time targetPing senderPing =>
    s.onGetMostRecentPort guid sessionId mostRecentPort time targetPing senderPing
  | .update time => s.update time

end Users

end NatPunchthroughServer

end SLikeNet
