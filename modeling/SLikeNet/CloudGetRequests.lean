import SLikeNet.CloudQueryResult
import SLikeNet.Library.GuardedRun
import SLikeNet.OrderedList
import Mathlib.Logic.Function.Basic

/-! The requests of `CloudServer` that wait for the answers of other servers. Servers and clients
are named by their GUIDs. -/

namespace SLikeNet

structure BufferedGetResponse where
  serverAddress : ℕ
  gotResult : Bool
deriving DecidableEq

structure GetRequest where
  requestId : ℕ
  requestingClient : ℕ
  requestStartTime : ℕ
  remoteServerResponses : List BufferedGetResponse
deriving DecidableEq

structure RemoteServer where
  serverAddress : ℕ
  gotSubscribedAndUploadedKeys : Bool
  uploadedKeys : List CloudKey
deriving DecidableEq

/-- `sent` has the clients that `ID_CLOUD_GET_RESPONSE` was sent to, with the ids of their
requests. -/
structure CloudGetServer where
  remoteServers : List RemoteServer
  getRequests : List GetRequest
  nextGetRequestId : ℕ
  nextGetRequestsCheck : ℕ
  sent : List (ℕ × ℕ)

namespace GetRequest

def allRemoteServersHaveResponded (request : GetRequest) : Bool :=
  request.remoteServerResponses.all fun response => response.gotResult

/-- The servers whose answers are missing. -/
def missing (request : GetRequest) : List ℕ :=
  (request.remoteServerResponses.filter fun response => !response.gotResult).map
    BufferedGetResponse.serverAddress

def markResponse (guid : ℕ) (request : GetRequest) : GetRequest :=
  { request with
    remoteServerResponses := request.remoteServerResponses.map fun response =>
      if response.serverAddress = guid then { response with gotResult := true } else response }

def removeResponse (guid : ℕ) (request : GetRequest) : GetRequest :=
  { request with
    remoteServerResponses :=
      request.remoteServerResponses.filter fun response => response.serverAddress ≠ guid }

end GetRequest

namespace CloudGetServer

def initial : CloudGetServer := ⟨[], [], 0, 0, []⟩

/-- A greater key compares as a lesser one does. -/
def getRequestComp (key : ℕ) (data : GetRequest) : Ordering :=
  if key < data.requestId then .lt else if data.requestId < key then .lt else .eq

def search (requestId : ℕ) (getRequests : List GetRequest) : ℕ × Bool :=
  OrderedList.getIndexFromKey getRequestComp getRequests requestId

def insertGetRequest (request : GetRequest) (getRequests : List GetRequest) : List GetRequest :=
  if (search request.requestId getRequests).2 then getRequests
  else getRequests.insertIdx (search request.requestId getRequests).1 request

def processAndTransmitGetRequest (request : GetRequest) (s : CloudGetServer) : CloudGetServer :=
  { s with sent := s.sent ++ [(request.requestingClient, request.requestId)] }

/-- `GetServersWithUploadedKeys` -/
def getServersWithUploadedKeys (keys : List CloudKey) (s : CloudGetServer) : List RemoteServer :=
  s.remoteServers.filter fun server =>
    !server.gotSubscribedAndUploadedKeys || keys.any fun key => decide (key ∈ server.uploadedKeys)

/-- The list of the servers is ordered, and so are the answers that are expected. -/
def newRequest (client : ℕ) (keys : List CloudKey) (now : ℕ) (s : CloudGetServer) : GetRequest where
  requestId := s.nextGetRequestId
  requestingClient := client
  requestStartTime := now
  remoteServerResponses :=
    (s.getServersWithUploadedKeys keys).map fun server => ⟨server.serverAddress, false⟩

def onGetRequest (client : ℕ) (keys : List CloudKey) (now : ℕ) (s : CloudGetServer) :
    CloudGetServer :=
  if keys = [] then s
  else if s.getServersWithUploadedKeys keys = [] then
    { s with nextGetRequestId := (s.nextGetRequestId + 1) % 4294967296 }.processAndTransmitGetRequest
      (s.newRequest client keys now)
  else
    { s with
      nextGetRequestId := (s.nextGetRequestId + 1) % 4294967296
      getRequests := insertGetRequest (s.newRequest client keys now) s.getRequests }

/-- The part of `OnServerToServerGetResponse` for a request that was found. -/
def respond (guid index : ℕ) (request : GetRequest) (s : CloudGetServer) : CloudGetServer :=
  if ⟨guid, false⟩ ∈ request.remoteServerResponses then
    if (request.markResponse guid).allRemoteServersHaveResponded then
      { s with getRequests := s.getRequests.eraseIdx index }.processAndTransmitGetRequest request
    else { s with getRequests := s.getRequests.set index (request.markResponse guid) }
  else s

def isRemoteServer (guid : ℕ) (s : CloudGetServer) : Bool :=
  s.remoteServers.any fun server => server.serverAddress = guid

def onServerToServerGetResponse (guid requestId : ℕ) (s : CloudGetServer) : CloudGetServer :=
  if s.isRemoteServer guid && (search requestId s.getRequests).2 then
    match s.getRequests[(search requestId s.getRequests).1]? with
    | none => s
    | some request => s.respond guid (search requestId s.getRequests).1 request
  else s

/-- The loop of `OnClosedConnection`: the requests that stay, and what is sent. -/
def closeLoop (guid : ℕ) : List GetRequest → List GetRequest × List (ℕ × ℕ)
  | [] => ([], [])
  | request :: getRequests =>
    let rest := closeLoop guid getRequests
    if request.remoteServerResponses.any fun response => response.serverAddress = guid then
      if (request.removeResponse guid).allRemoteServersHaveResponded then
        (rest.1, (request.requestingClient, request.requestId) :: rest.2)
      else (request.removeResponse guid :: rest.1, rest.2)
    else (request :: rest.1, rest.2)

def onClosedConnection (guid : ℕ) (s : CloudGetServer) : CloudGetServer :=
  if s.isRemoteServer guid then
    { s with
      remoteServers := s.remoteServers.filter fun server => server.serverAddress ≠ guid
      getRequests := (closeLoop guid s.getRequests).1
      sent := s.sent ++ (closeLoop guid s.getRequests).2 }
  else s

/-- `SLNet::Time()` is a number that is zero, and not the time. -/
def updateTime : ℕ := 0

def timedOut (time : ℕ) (request : GetRequest) : Bool :=
  3000 < (time + 18446744073709551616 - request.requestStartTime) % 18446744073709551616

def update (s : CloudGetServer) : CloudGetServer :=
  if s.nextGetRequestsCheck < updateTime then
    { s with
      nextGetRequestsCheck := updateTime + 1000
      getRequests := s.getRequests.filter fun request => !timedOut updateTime request
      sent := s.sent ++ (s.getRequests.filter (timedOut updateTime)).map fun request =>
        (request.requestingClient, request.requestId) }
  else s

def addServer (guid : ℕ) (s : CloudGetServer) : CloudGetServer :=
  if s.isRemoteServer guid then s
  else
    { s with
      remoteServers := s.remoteServers.takeWhile (fun server => server.serverAddress < guid) ++
        ⟨guid, false, []⟩ :: s.remoteServers.dropWhile fun server => server.serverAddress < guid }

/-- What the commands of a server about its keys come to. -/
def setUploadedKeys (guid : ℕ) (keys : List CloudKey) (s : CloudGetServer) : CloudGetServer :=
  { s with
    remoteServers := s.remoteServers.map fun server =>
      if server.serverAddress = guid then ⟨guid, true, keys⟩ else server }

/-- What was sent for a request. -/
def sentFor (requestId : ℕ) (s : CloudGetServer) : List (ℕ × ℕ) :=
  s.sent.filter fun message => message.2 = requestId

end CloudGetServer

/-! ### Runs -/

/-- The server, and what a request is owed: its client, when it was accepted, the servers that have
neither responded nor disconnected, and whether an `Update` was made after more than 4000 ms. -/
structure GetRun where
  server : CloudGetServer
  client : ℕ → ℕ
  start : ℕ → ℕ
  waiting : ℕ → List ℕ
  overdue : ℕ → Bool

namespace GetRun

inductive Operation
  | get (client : ℕ) (keys : List CloudKey) (now : ℕ)
  | response (guid requestId : ℕ)
  | closedConnection (guid : ℕ)
  | update (now : ℕ)
  | addServer (guid : ℕ)
  | setUploadedKeys (guid : ℕ) (keys : List CloudKey)

def initial : GetRun := ⟨.initial, fun _ => 0, fun _ => 0, fun _ => [], fun _ => false⟩

def perform (w : GetRun) : Operation → GetRun
  | .get client keys now =>
    { server := w.server.onGetRequest client keys now
      client := Function.update w.client w.server.nextGetRequestId client
      start := Function.update w.start w.server.nextGetRequestId now
      waiting := Function.update w.waiting w.server.nextGetRequestId
        ((w.server.getServersWithUploadedKeys keys).map RemoteServer.serverAddress)
      overdue := w.overdue }
  | .response guid requestId =>
    { w with
      server := w.server.onServerToServerGetResponse guid requestId
      waiting := Function.update w.waiting requestId
        ((w.waiting requestId).filter fun server => server ≠ guid) }
  | .closedConnection guid =>
    { w with
      server := w.server.onClosedConnection guid
      waiting := fun requestId => (w.waiting requestId).filter fun server => server ≠ guid }
  | .update now =>
    { w with
      server := w.server.update
      overdue := fun requestId =>
        w.overdue requestId || decide (requestId < w.server.nextGetRequestId) &&
          decide (w.start requestId + 4000 < now) }
  | .addServer guid => { w with server := w.server.addServer guid }
  | .setUploadedKeys guid keys => { w with server := w.server.setUploadedKeys guid keys }

/-- A request has a key, and the ids do not start again. -/
def Possible (w : GetRun) : Operation → Prop
  | .get _ keys _ => keys ≠ [] ∧ w.server.nextGetRequestId + 1 < 4294967296
  | _ => True

/-- The search finds the request that an answer is for, and no request waits for long. -/
def Handled (w : GetRun) : Operation → Prop
  | .response _ requestId =>
    (∃ request ∈ w.server.getRequests, request.requestId = requestId) →
      (CloudGetServer.search requestId w.server.getRequests).2 = true
  | .update now => ∀ request ∈ w.server.getRequests, now ≤ request.requestStartTime + 4000
  | _ => True

def Allowed (w : GetRun) (op : Operation) : Prop := w.Possible op ∧ w.Handled op

def Reachable : GetRun → Prop := GuardedRun.Reachable perform Allowed initial

/-- Every request has one answer at most, has it when no server is waited for or it is overdue, and
is kept until then. -/
def Answered (w : GetRun) : Prop :=
  ∀ requestId < w.server.nextGetRequestId,
    (w.server.sentFor requestId = [] ∨
      w.server.sentFor requestId = [(w.client requestId, requestId)]) ∧
    (w.waiting requestId = [] ∨ w.overdue requestId = true → w.server.sentFor requestId ≠ []) ∧
    ((∃ request ∈ w.server.getRequests, request.requestId = requestId) ↔
      w.server.sentFor requestId = [])

end GetRun

end SLikeNet
