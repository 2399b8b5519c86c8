import SLikeNet.CloudGetRequests

/-! Every request of the cloud is answered once where the search of the waiting requests finds those
that are answered, and none of them waits for longer than the time that `Update` gives it. -/

namespace SLikeNet

/-! ### The list of the requests -/

namespace CloudGetServer

open OrderedList

variable {s : CloudGetServer} {getRequests : List GetRequest}

theorem search_found {requestId : ℕ} (h : (search requestId getRequests).2 = true) :
    ∃ request, getRequests[(search requestId getRequests).1]? = some request ∧
      request.requestId = requestId := by
  obtain ⟨request, hget, hcomp⟩ := searchLoop_matches (show getIndexFromKey getRequestComp
    getRequests requestId = ((search requestId getRequests).1, true) from Prod.ext rfl h)
  refine ⟨request, hget, ?_⟩
  unfold getRequestComp at hcomp
  split at hcomp
  · cases hcomp
  · split at hcomp
    · cases hcomp
    · omega

theorem insertGetRequest_new {request : GetRequest}
    (h : ∀ other ∈ getRequests, other.requestId < request.requestId) :
    insertGetRequest request getRequests = request :: getRequests := by
  have hsearch : search request.requestId getRequests = (0, false) := by
    cases hlist : getRequests with
    | nil => rfl
    | cons other rest =>
      refine searchLoop_front (fun d hd => ?_) (by simp; omega)
      have hlt := h d (hlist ▸ hd)
      unfold getRequestComp
      rw [if_neg (by omega), if_pos hlt]
  rw [insertGetRequest, hsearch]
  rfl

theorem sentFor_transmit (request : GetRequest) (id : ℕ) :
    (s.processAndTransmitGetRequest request).sentFor id =
      s.sentFor id ++ if request.requestId = id then
        [(request.requestingClient, request.requestId)] else [] := by
  unfold sentFor processAndTransmitGetRequest
  rw [List.filter_append]
  by_cases hid : request.requestId = id
  · simp [hid]
  · simp [hid]

end CloudGetServer

namespace GetRequest

variable {request : GetRequest} {guid : ℕ}

theorem mem_missing : guid ∈ request.missing ↔ ⟨guid, false⟩ ∈ request.remoteServerResponses := by
  unfold missing
  rw [List.mem_map]
  constructor
  · rintro ⟨⟨server, gotResult⟩, hmem, rfl⟩
    obtain ⟨hmem, hgot⟩ := List.mem_filter.mp hmem
    cases gotResult with
    | true => cases hgot
    | false => exact hmem
  · intro hmem
    exact ⟨⟨guid, false⟩, List.mem_filter.mpr ⟨hmem, rfl⟩, rfl⟩

theorem allRemoteServersHaveResponded_iff :
    request.allRemoteServersHaveResponded = true ↔ request.missing = [] := by
  unfold allRemoteServersHaveResponded missing
  rw [List.map_eq_nil_iff, List.filter_eq_nil_iff, List.all_eq_true]
  simp

theorem missing_markResponse : (request.markResponse guid).missing =
    request.missing.filter fun server => server ≠ guid := by
  unfold missing markResponse
  dsimp only
  induction request.remoteServerResponses with
  | nil => rfl
  | cons response responses ih =>
    obtain ⟨server, gotResult⟩ := response
    by_cases hserver : server = guid
    · cases gotResult with
      | true => simpa [hserver] using ih
      | false => simpa [hserver] using ih
    · cases gotResult with
      | true => simpa [hserver] using ih
      | false => simpa [hserver] using ih

theorem missing_removeResponse : (request.removeResponse guid).missing =
    request.missing.filter fun server => server ≠ guid := by
  unfold missing removeResponse
  rw [List.filter_map, List.filter_filter, List.filter_filter]
  refine congrArg _ (List.filter_congr fun response _ => ?_)
  exact Bool.and_comm _ _

theorem removeResponse_of_not_any
    (h : ¬ (request.remoteServerResponses.any fun response => response.serverAddress = guid) = true) :
    request.removeResponse guid = request := by
  have hfilter : (request.remoteServerResponses.filter fun response =>
      response.serverAddress ≠ guid) = request.remoteServerResponses := by
    rw [List.filter_eq_self]
    intro response hresponse
    rw [List.any_eq_true] at h
    simp only [decide_eq_true_eq]
    intro hguid
    exact h ⟨response, hresponse, by simpa using hguid⟩
  unfold removeResponse
  rw [hfilter]

end GetRequest

namespace GetRun

open CloudGetServer

variable {w : GetRun}

structure Sound (w : GetRun) : Prop where
  check : w.server.nextGetRequestsCheck = 0
  known : ∀ request ∈ w.server.getRequests, request.requestId < w.server.nextGetRequestId
  waiting : ∀ request ∈ w.server.getRequests, w.waiting request.requestId = request.missing
  incomplete : ∀ request ∈ w.server.getRequests, request.missing ≠ []
  client : ∀ request ∈ w.server.getRequests,
    request.requestingClient = w.client request.requestId
  start : ∀ request ∈ w.server.getRequests, request.requestStartTime = w.start request.requestId
  distinct : (w.server.getRequests.map GetRequest.requestId).Nodup
  listed : ∀ id, w.waiting id ≠ [] → ∃ request ∈ w.server.getRequests, request.requestId = id
  sent : ∀ id < w.server.nextGetRequestId, w.server.sentFor id =
    if w.waiting id = [] then [(w.client id, id)] else []
  unsent : ∀ id, w.server.nextGetRequestId ≤ id → w.server.sentFor id = []
  servers : ∀ id, ∀ server ∈ w.waiting id, w.server.isRemoteServer server = true
  overdue : ∀ id, w.overdue id = true → id < w.server.nextGetRequestId ∧ w.waiting id = []

theorem Sound.answered (h : w.Sound) : w.Answered := by
  intro id hid
  have hsent := h.sent id hid
  refine ⟨?_, fun hcases => ?_, ?_⟩
  · split at hsent
    · exact Or.inr hsent
    · exact Or.inl hsent
  · have hnone : w.waiting id = [] := by
      rcases hcases with hnone | hover
      · exact hnone
      · exact (h.overdue id hover).2
    rw [hsent, if_pos hnone]
    simp
  · constructor
    · rintro ⟨request, hrequest, rfl⟩
      rw [hsent, h.waiting request hrequest, if_neg (h.incomplete request hrequest)]
    · intro hnone
      refine h.listed id fun hwaiting => ?_
      rw [hsent, if_pos hwaiting] at hnone
      cases hnone

theorem sound_initial : initial.Sound where
  check := rfl
  known := fun request hrequest => by cases hrequest
  waiting := fun request hrequest => by cases hrequest
  incomplete := fun request hrequest => by cases hrequest
  client := fun request hrequest => by cases hrequest
  start := fun request hrequest => by cases hrequest
  distinct := List.nodup_nil
  listed := fun id hid => absurd rfl hid
  sent := fun id hid => absurd hid (Nat.not_lt_zero id)
  unsent := fun id _ => rfl
  servers := fun id server hserver => by cases hserver
  overdue := fun id hid => by cases hid

theorem Sound.waiting_new (h : w.Sound) {id : ℕ} (hid : w.server.nextGetRequestId ≤ id) :
    w.waiting id = [] := by
  by_contra hne
  obtain ⟨request, hrequest, heq⟩ := h.listed id hne
  have hlt := h.known request hrequest
  omega

theorem missing_newRequest (client : ℕ) (keys : List CloudKey) (now : ℕ) (s : CloudGetServer) :
    (s.newRequest client keys now).missing =
      (s.getServersWithUploadedKeys keys).map RemoteServer.serverAddress := by
  unfold GetRequest.missing newRequest
  dsimp only
  rw [List.filter_eq_self.mpr fun response hresponse => by
    obtain ⟨server, -, rfl⟩ := List.mem_map.mp hresponse
    rfl, List.map_map]
  rfl

theorem isRemoteServer_of_uploaded {s : CloudGetServer} {keys : List CloudKey} {guid : ℕ}
    (hmem : guid ∈ (s.getServersWithUploadedKeys keys).map RemoteServer.serverAddress) :
    s.isRemoteServer guid = true := by
  obtain ⟨server, hserver, rfl⟩ := List.mem_map.mp hmem
  exact List.any_eq_true.mpr ⟨server, (List.mem_filter.mp hserver).1, by simp⟩

/-- What the server does with a new request, which waits for the servers `servers`. -/
structure Accepts (s s' : CloudGetServer) (client now : ℕ) (servers : List ℕ) : Prop where
  next : s'.nextGetRequestId = s.nextGetRequestId + 1
  check : s'.nextGetRequestsCheck = s.nextGetRequestsCheck
  remoteServers : s'.remoteServers = s.remoteServers
  kept : ∀ request ∈ s.getRequests, request ∈ s'.getRequests
  new : ∀ request ∈ s'.getRequests, request ∈ s.getRequests ∨
    (request.requestId = s.nextGetRequestId ∧ request.missing = servers ∧ servers ≠ [] ∧
      request.requestingClient = client ∧ request.requestStartTime = now)
  distinct : (s'.getRequests.map GetRequest.requestId).Nodup
  listed : servers ≠ [] → ∃ request ∈ s'.getRequests, request.requestId = s.nextGetRequestId
  sent : ∀ id, s'.sentFor id = s.sentFor id ++
    if id = s.nextGetRequestId ∧ servers = [] then [(client, id)] else []

theorem Sound.accepts (h : w.Sound) {client now : ℕ} {keys : List CloudKey} (hkeys : keys ≠ [])
    (hroom : w.server.nextGetRequestId + 1 < 4294967296) :
    Accepts w.server (w.server.onGetRequest client keys now) client now
      ((w.server.getServersWithUploadedKeys keys).map RemoteServer.serverAddress) := by
  have hnext : (w.server.nextGetRequestId + 1) % 4294967296 = w.server.nextGetRequestId + 1 :=
    Nat.mod_eq_of_lt hroom
  by_cases hnone : w.server.getServersWithUploadedKeys keys = []
  · have hserver : w.server.onGetRequest client keys now =
        { w.server with nextGetRequestId := w.server.nextGetRequestId + 1
          }.processAndTransmitGetRequest (w.server.newRequest client keys now) := by
      rw [onGetRequest, if_neg hkeys, if_pos hnone, hnext]
    have hnil : (w.server.getServersWithUploadedKeys keys).map RemoteServer.serverAddress = [] := by
      rw [hnone]
      rfl
    rw [hserver, hnil]
    refine ⟨rfl, rfl, rfl, fun _ hrequest => hrequest, fun _ hrequest => Or.inl hrequest,
      h.distinct, fun hne => absurd rfl hne, fun id => ?_⟩
    rw [sentFor_transmit]
    by_cases hid : id = w.server.nextGetRequestId
    · have hsame : (w.server.newRequest client keys now).requestId = id := hid.symm
      rw [if_pos hsame, if_pos ⟨hid, rfl⟩, hid]
      rfl
    · have hother : (w.server.newRequest client keys now).requestId ≠ id := fun heq =>
        hid heq.symm
      rw [if_neg hother, if_neg fun hand => hid hand.1]
      rfl
  · have hserver : w.server.onGetRequest client keys now =
        { w.server with
          nextGetRequestId := w.server.nextGetRequestId + 1
          getRequests := w.server.newRequest client keys now :: w.server.getRequests } := by
      have hinsert := @insertGetRequest_new _ (w.server.newRequest client keys now) h.known
      rw [onGetRequest, if_neg hkeys, if_neg hnone, hnext, hinsert]
    have hmissing := missing_newRequest client keys now w.server
    have hwaits : (w.server.getServersWithUploadedKeys keys).map RemoteServer.serverAddress ≠ [] :=
      fun hnil => hnone (List.map_eq_nil_iff.mp hnil)
    rw [hserver]
    refine ⟨rfl, rfl, rfl, fun _ hrequest => List.mem_cons_of_mem _ hrequest,
      fun request hrequest => ?_, List.nodup_cons.mpr ⟨fun hmem => ?_, h.distinct⟩,
      fun _ => ⟨_, List.mem_cons_self, rfl⟩, fun id => ?_⟩
    · rcases List.mem_cons.mp hrequest with rfl | hold
      · exact Or.inr ⟨rfl, hmissing, hwaits, rfl, rfl⟩
      · exact Or.inl hold
    · obtain ⟨request, hrequest, heq⟩ := List.mem_map.mp hmem
      have hlt := h.known request hrequest
      rw [heq] at hlt
      exact absurd hlt (Nat.lt_irrefl _)
    · rw [if_neg (fun hand => hwaits hand.2), List.append_nil]
      rfl

theorem Sound.get (h : w.Sound) {client : ℕ} {keys : List CloudKey} {now : ℕ} (hkeys : keys ≠ [])
    (hroom : w.server.nextGetRequestId + 1 < 4294967296) :
    (w.perform (.get client keys now)).Sound := by
  have haccepts := @Sound.accepts w h client now keys hkeys hroom
  have hservers := @isRemoteServer_of_uploaded w.server keys
  have hclients : ∀ id, (w.perform (.get client keys now)).client id =
      if id = w.server.nextGetRequestId then client else w.client id := fun id =>
    Function.update_apply _ _ _ _
  have hstarts : ∀ id, (w.perform (.get client keys now)).start id =
      if id = w.server.nextGetRequestId then now else w.start id := fun id =>
    Function.update_apply _ _ _ _
  have hwaiting : ∀ id, (w.perform (.get client keys now)).waiting id =
      if id = w.server.nextGetRequestId then
        (w.server.getServersWithUploadedKeys keys).map RemoteServer.serverAddress
      else w.waiting id := fun id => Function.update_apply _ _ _ _
  generalize (w.server.getServersWithUploadedKeys keys).map RemoteServer.serverAddress = servers at *
  have hother : ∀ request ∈ w.server.getRequests,
      request.requestId ≠ w.server.nextGetRequestId := fun request hrequest =>
    Nat.ne_of_lt (h.known request hrequest)
  have hnext : (w.perform (.get client keys now)).server.nextGetRequestId =
      w.server.nextGetRequestId + 1 := haccepts.next
  refine ⟨haccepts.check.trans h.check, fun request hrequest => ?_, fun request hrequest => ?_,
    fun request hrequest => ?_, fun request hrequest => ?_, fun request hrequest => ?_,
    haccepts.distinct, fun id hid => ?_, fun id hid => ?_, fun id hid => ?_,
    fun id server hmem => ?_, fun id hid => ?_⟩
  · rw [hnext]
    rcases haccepts.new request hrequest with hold | ⟨hid, -⟩
    · have hlt := h.known request hold
      omega
    · omega
  · rcases haccepts.new request hrequest with hold | ⟨hid, hmissing, -⟩
    · rw [hwaiting, if_neg (hother request hold)]
      exact h.waiting request hold
    · rw [hwaiting, if_pos hid, hmissing]
  · rcases haccepts.new request hrequest with hold | ⟨-, hmissing, hne, -⟩
    · exact h.incomplete request hold
    · rw [hmissing]
      exact hne
  · rcases haccepts.new request hrequest with hold | ⟨hid, -, -, hclient, -⟩
    · rw [hclients, if_neg (hother request hold)]
      exact h.client request hold
    · rw [hclients, if_pos hid, hclient]
  · rcases haccepts.new request hrequest with hold | ⟨hid, -, -, -, hstart⟩
    · rw [hstarts, if_neg (hother request hold)]
      exact h.start request hold
    · rw [hstarts, if_pos hid, hstart]
  · rw [hwaiting] at hid
    by_cases heq : id = w.server.nextGetRequestId
    · rw [if_pos heq] at hid
      rw [heq]
      exact haccepts.listed hid
    · rw [if_neg heq] at hid
      obtain ⟨request, hrequest, hsame⟩ := h.listed id hid
      exact ⟨request, haccepts.kept request hrequest, hsame⟩
  · rw [hnext] at hid
    rw [hwaiting, hclients]
    refine (haccepts.sent id).trans ?_
    by_cases heq : id = w.server.nextGetRequestId
    · rw [if_pos heq, if_pos heq, heq, h.unsent _ (Nat.le_refl _), List.nil_append]
      simp only [true_and]
    · rw [if_neg heq, if_neg heq, if_neg fun hand => heq hand.1, List.append_nil]
      exact h.sent id (by omega)
  · rw [hnext] at hid
    refine (haccepts.sent id).trans ?_
    rw [if_neg (fun hand => by omega), List.append_nil]
    exact h.unsent id (by omega)
  · have hremote : (w.perform (.get client keys now)).server.isRemoteServer server =
        w.server.isRemoteServer server := by
      unfold isRemoteServer
      exact congrArg (fun l => List.any l _) haccepts.remoteServers
    rw [hremote]
    rw [hwaiting] at hmem
    split at hmem
    · exact hservers hmem
    · exact h.servers id server hmem
  · obtain ⟨hlt, hnil⟩ := h.overdue id hid
    refine ⟨?_, ?_⟩
    · rw [hnext]
      omega
    · rw [hwaiting, if_neg (Nat.ne_of_lt hlt)]
      exact hnil

/-! ### Answers, closed connections and updates -/

/-- The server after some servers are no longer waited for by some requests: those that wait for no
server are answered. -/
structure Progress (w : GetRun) (s' : CloudGetServer) (waiting' : ℕ → List ℕ) : Prop where
  next : s'.nextGetRequestId = w.server.nextGetRequestId
  check : s'.nextGetRequestsCheck = w.server.nextGetRequestsCheck
  left : ∀ request' ∈ s'.getRequests, ∃ request ∈ w.server.getRequests,
    request'.requestId = request.requestId ∧
      request'.requestingClient = request.requestingClient ∧
      request'.requestStartTime = request.requestStartTime ∧
      request'.missing = waiting' request.requestId ∧ request'.missing ≠ []
  kept : ∀ request ∈ w.server.getRequests, waiting' request.requestId ≠ [] →
    ∃ request' ∈ s'.getRequests, request'.requestId = request.requestId
  distinct : (s'.getRequests.map GetRequest.requestId).Nodup
  sent : ∀ id, s'.sentFor id = w.server.sentFor id ++
    if w.waiting id ≠ [] ∧ waiting' id = [] then [(w.client id, id)] else []
  fewer : ∀ id, w.waiting id = [] → waiting' id = []
  servers : ∀ id, ∀ server ∈ waiting' id, s'.isRemoteServer server = true

theorem Sound.progress (h : w.Sound) {s' : CloudGetServer} {waiting' : ℕ → List ℕ}
    (hp : Progress w s' waiting') : ({ w with server := s', waiting := waiting' } : GetRun).Sound := by
  refine ⟨hp.check.trans h.check, fun request' hrequest' => ?_, fun request' hrequest' => ?_,
    fun request' hrequest' => ?_, fun request' hrequest' => ?_, fun request' hrequest' => ?_,
    hp.distinct, fun id hid => ?_, fun id hid => ?_, fun id hid => ?_, hp.servers,
    fun id hid => ?_⟩
  · obtain ⟨request, hrequest, hsame, -⟩ := hp.left request' hrequest'
    have hlt := h.known request hrequest
    show request'.requestId < s'.nextGetRequestId
    rw [hp.next, hsame]
    exact hlt
  · obtain ⟨request, -, hsame, -, -, hmissing, -⟩ := hp.left request' hrequest'
    show waiting' request'.requestId = _
    rw [hsame, hmissing]
  · obtain ⟨request, -, -, -, -, -, hne⟩ := hp.left request' hrequest'
    exact hne
  · obtain ⟨request, hrequest, hsame, hclient, -⟩ := hp.left request' hrequest'
    show request'.requestingClient = w.client request'.requestId
    rw [hclient, hsame]
    exact h.client request hrequest
  · obtain ⟨request, hrequest, hsame, -, hstart, -⟩ := hp.left request' hrequest'
    show request'.requestStartTime = w.start request'.requestId
    rw [hstart, hsame]
    exact h.start request hrequest
  · have hold : w.waiting id ≠ [] := fun hnil => hid (hp.fewer id hnil)
    obtain ⟨request, hrequest, rfl⟩ := h.listed id hold
    exact hp.kept request hrequest hid
  · have hlt : id < w.server.nextGetRequestId := hp.next ▸ hid
    show s'.sentFor id = if waiting' id = [] then [(w.client id, id)] else []
    rw [hp.sent id, h.sent id hlt]
    by_cases hold : w.waiting id = []
    · rw [if_pos hold, if_pos (hp.fewer id hold), if_neg fun hand => hand.1 hold, List.append_nil]
    · rw [if_neg hold, List.nil_append]
      by_cases hnew : waiting' id = []
      · rw [if_pos ⟨hold, hnew⟩, if_pos hnew]
      · rw [if_neg fun hand => hnew hand.2, if_neg hnew]
  · have hle : w.server.nextGetRequestId ≤ id := hp.next ▸ hid
    show s'.sentFor id = []
    rw [hp.sent id, h.unsent id hle, if_neg fun hand => hand.1 (h.waiting_new hle)]
    rfl
  · obtain ⟨hlt, hnil⟩ := h.overdue id hid
    refine ⟨?_, hp.fewer id hnil⟩
    show id < s'.nextGetRequestId
    rw [hp.next]
    exact hlt

theorem split_getRequests {getRequests : List GetRequest} {index : ℕ} {request : GetRequest}
    (hget : getRequests[index]? = some request) : ∃ front back,
      getRequests = front ++ request :: back ∧ getRequests.eraseIdx index = front ++ back ∧
        ∀ other, getRequests.set index other = front ++ other :: back := by
  induction getRequests generalizing index with
  | nil => cases hget
  | cons first rest ih =>
    cases index with
    | zero =>
      cases hget
      exact ⟨[], rest, rfl, rfl, fun _ => rfl⟩
    | succ index =>
      obtain ⟨front, back, hlist, herase, hset⟩ := ih hget
      refine ⟨first :: front, back, congrArg (first :: ·) hlist, congrArg (first :: ·) herase,
        fun other => congrArg (first :: ·) (hset other)⟩

theorem update_ignored {guid id : ℕ} (hignored : guid ∉ w.waiting id) :
    Function.update w.waiting id ((w.waiting id).filter fun server => server ≠ guid) =
      w.waiting := by
  have hfilter : (w.waiting id).filter (fun server => server ≠ guid) = w.waiting id := by
    rw [List.filter_eq_self]
    intro server hserver
    simp only [decide_eq_true_eq]
    rintro rfl
    exact hignored hserver
  rw [hfilter, Function.update_eq_self]

theorem Sound.others (h : w.Sound) {request : GetRequest} {front back : List GetRequest}
    (hlist : w.server.getRequests = front ++ request :: back) :
    ((front ++ back).map GetRequest.requestId).Nodup ∧
      ∀ other ∈ front ++ back, other ∈ w.server.getRequests ∧
        other.requestId ≠ request.requestId := by
  have hdistinct := h.distinct
  rw [hlist, List.map_append, List.map_cons, List.nodup_middle] at hdistinct
  obtain ⟨hnew, hrest⟩ := List.nodup_cons.mp hdistinct
  rw [List.map_append]
  refine ⟨hrest, fun other hother => ⟨?_, fun heq => ?_⟩⟩
  · rw [hlist]
    simp only [List.mem_append, List.mem_cons] at hother ⊢
    tauto
  · refine hnew ?_
    rw [← List.map_append, ← heq]
    exact List.mem_map_of_mem hother

theorem Sound.exists_waiting (h : w.Sound) {request : GetRequest} {front back : List GetRequest}
    (hlist : w.server.getRequests = front ++ request :: back) {i : ℕ} (hwaits : w.waiting i ≠ []) :
    i = request.requestId ∨ ∃ other ∈ front ++ back, other.requestId = i := by
  obtain ⟨other, hother, rfl⟩ := h.listed i hwaits
  rw [hlist] at hother
  simp only [List.mem_append, List.mem_cons] at hother
  rcases hother with hfront | rfl | hback
  · exact .inr ⟨other, List.mem_append_left _ hfront, rfl⟩
  · exact .inl rfl
  · exact .inr ⟨other, List.mem_append_right _ hback, rfl⟩

theorem Sound.servers_update (h : w.Sound) (guid id i server : ℕ)
    (hmem : server ∈ Function.update w.waiting id
      ((w.waiting id).filter fun server => server ≠ guid) i) :
    w.server.isRemoteServer server = true := by
  by_cases heq : i = id
  · rw [heq, Function.update_self] at hmem
    exact h.servers id server (List.mem_filter.mp hmem).1
  · rw [Function.update_of_ne heq] at hmem
    exact h.servers i server hmem

theorem Sound.answer (h : w.Sound) {guid id index : ℕ} {request : GetRequest}
    (hget : w.server.getRequests[index]? = some request) (hid : request.requestId = id)
    (hmissing : (request.markResponse guid).missing =
      Function.update w.waiting id ((w.waiting id).filter fun server => server ≠ guid)
        request.requestId) :
    ({ w with
      server :=
        if (request.markResponse guid).allRemoteServersHaveResponded then
          { w.server with getRequests := w.server.getRequests.eraseIdx index
            }.processAndTransmitGetRequest request
        else
          { w.server with
            getRequests := w.server.getRequests.set index (request.markResponse guid) }
      waiting := Function.update w.waiting id
        ((w.waiting id).filter fun server => server ≠ guid) } : GetRun).Sound := by
  obtain ⟨front, back, hlist, herase, hset⟩ := split_getRequests hget
  have hmem := List.mem_of_getElem? hget
  have hwaiting := h.waiting request hmem
  have hne : w.waiting id ≠ [] := by
    rw [← hid, hwaiting]
    exact h.incomplete request hmem
  obtain ⟨hrest, hothers⟩ := h.others hlist
  rw [hid] at hothers
  have hkeeps : ∀ other ∈ front ++ back, other.missing =
      Function.update w.waiting id ((w.waiting id).filter fun server => server ≠ guid)
        other.requestId := by
    intro other hother
    rw [Function.update_of_ne (hothers other hother).2]
    exact (h.waiting other (hothers other hother).1).symm
  have hfewer : ∀ i, w.waiting i = [] →
      Function.update w.waiting id ((w.waiting id).filter fun server => server ≠ guid) i = [] := by
    intro i hi
    by_cases heq : i = id
    · rw [heq] at hi
      exact absurd hi hne
    · rw [Function.update_of_ne heq]
      exact hi
  have hservers := h.servers_update guid id
  refine h.progress ?_
  generalize Function.update w.waiting id
    ((w.waiting id).filter fun server => server ≠ guid) = waiting' at *
  by_cases hall : (request.markResponse guid).allRemoteServersHaveResponded = true
  · have hdone : waiting' id = [] := by
      rw [← hid, ← hmissing]
      exact GetRequest.allRemoteServersHaveResponded_iff.mp hall
    rw [if_pos hall, herase]
    refine ⟨rfl, rfl, fun other hother => ?_, fun other hother hleft => ?_, ?_, fun i => ?_, hfewer,
      hservers⟩
    · exact ⟨other, (hothers other hother).1, rfl, rfl, rfl, hkeeps other hother,
        h.incomplete other (hothers other hother).1⟩
    · refine ⟨other, ?_, rfl⟩
      rw [hlist] at hother
      show other ∈ front ++ back
      simp only [List.mem_append, List.mem_cons] at hother ⊢
      rcases hother with hfront | rfl | hback
      · exact Or.inl hfront
      · rw [hid] at hleft
        exact absurd hdone hleft
      · exact Or.inr hback
    · exact hrest
    · rw [sentFor_transmit]
      by_cases heq : request.requestId = i
      · have hi : i = id := heq.symm.trans hid
        rw [if_pos heq, if_pos ⟨by rw [hi]; exact hne, by rw [hi]; exact hdone⟩,
          h.client request hmem, heq]
        rfl
      · rw [if_neg heq, List.append_nil, if_neg, List.append_nil]
        · rfl
        · rintro ⟨hwaits, hnil⟩
          rcases h.exists_waiting hlist hwaits with hsame | ⟨other, hside, rfl⟩
          · exact heq hsame.symm
          · rw [← hkeeps other hside] at hnil
            exact h.incomplete other (hothers other hside).1 hnil
  · have hleft : waiting' id ≠ [] := by
      rw [← hid, ← hmissing]
      exact fun hnil => hall (GetRequest.allRemoteServersHaveResponded_iff.mpr hnil)
    rw [if_neg hall, hset]
    refine ⟨rfl, rfl, fun other hother => ?_, fun other hother _ => ?_, ?_, fun i => ?_, hfewer,
      hservers⟩
    · have hcases : other = request.markResponse guid ∨ other ∈ front ++ back := by
        have hin : other ∈ front ++ request.markResponse guid :: back := hother
        simp only [List.mem_append, List.mem_cons] at hin ⊢
        tauto
      rcases hcases with rfl | hside
      · refine ⟨request, hmem, rfl, rfl, rfl, hmissing, ?_⟩
        rw [hmissing, hid]
        exact hleft
      · exact ⟨other, (hothers other hside).1, rfl, rfl, rfl, hkeeps other hside,
          h.incomplete other (hothers other hside).1⟩
    · rw [hlist] at hother
      show ∃ request' ∈ front ++ request.markResponse guid :: back, _
      simp only [List.mem_append, List.mem_cons] at hother
      rcases hother with hfront | rfl | hback
      · exact ⟨other, by simp [hfront], rfl⟩
      · exact ⟨other.markResponse guid, by simp, rfl⟩
      · exact ⟨other, by simp [hback], rfl⟩
    · have hdistinct := h.distinct
      rw [hlist, List.map_append, List.map_cons] at hdistinct
      show ((front ++ request.markResponse guid :: back).map _).Nodup
      rw [List.map_append, List.map_cons]
      exact hdistinct
    · rw [if_neg, List.append_nil]
      · rfl
      · rintro ⟨hwaits, hnil⟩
        rcases h.exists_waiting hlist hwaits with rfl | ⟨other, hside, rfl⟩
        · rw [hid] at hnil
          exact hleft hnil
        · rw [← hkeeps other hside] at hnil
          exact h.incomplete other (hothers other hside).1 hnil

theorem Sound.response (h : w.Sound) {guid id : ℕ}
    (hhandled : w.Handled (.response guid id)) : (w.perform (.response guid id)).Sound := by
  rw [perform, onServerToServerGetResponse]
  by_cases hcond : w.server.isRemoteServer guid && (search id w.server.getRequests).2
  · rw [if_pos hcond]
    rw [Bool.and_eq_true] at hcond
    obtain ⟨request, hget, hid⟩ := search_found hcond.2
    generalize (search id w.server.getRequests).1 = index at hget
    rw [hget]
    dsimp only
    have hmem := List.mem_of_getElem? hget
    have hwaiting : w.waiting id = request.missing := hid ▸ h.waiting request hmem
    rw [respond]
    by_cases hexpected : ⟨guid, false⟩ ∈ request.remoteServerResponses
    · rw [if_pos hexpected]
      have hmissing : (request.markResponse guid).missing =
          Function.update w.waiting id ((w.waiting id).filter fun server => server ≠ guid)
            request.requestId := by
        rw [GetRequest.missing_markResponse, hid, Function.update_self, hwaiting]
      exact h.answer hget hid hmissing
    · rw [if_neg hexpected, update_ignored (by rw [hwaiting, GetRequest.mem_missing]; exact hexpected)]
      exact h
  · rw [if_neg hcond]
    have hignored : guid ∉ w.waiting id := by
      intro hguid
      have hne : w.waiting id ≠ [] := List.ne_nil_of_mem hguid
      have hfound := hhandled (h.listed id hne)
      rw [h.servers id guid hguid, hfound] at hcond
      exact hcond rfl
    rw [update_ignored hignored]
    exact h

theorem closeLoop_cons (guid : ℕ) {request : GetRequest} (hincomplete : request.missing ≠ [])
    (getRequests : List GetRequest) : closeLoop guid (request :: getRequests) =
      if (request.removeResponse guid).missing = [] then
        ((closeLoop guid getRequests).1,
          (request.requestingClient, request.requestId) :: (closeLoop guid getRequests).2)
      else (request.removeResponse guid :: (closeLoop guid getRequests).1,
        (closeLoop guid getRequests).2) := by
  rw [closeLoop]
  by_cases hany : (request.remoteServerResponses.any fun response =>
      response.serverAddress = guid) = true
  · rw [if_pos hany]
    by_cases hall : (request.removeResponse guid).missing = []
    · rw [if_pos hall, if_pos (GetRequest.allRemoteServersHaveResponded_iff.mpr hall)]
    · rw [if_neg hall,
        if_neg fun hresponded => hall (GetRequest.allRemoteServersHaveResponded_iff.mp hresponded)]
  · rw [if_neg hany, GetRequest.removeResponse_of_not_any hany, if_neg hincomplete]

structure Closed (guid : ℕ) (getRequests : List GetRequest) : Prop where
  left : ∀ request' ∈ (closeLoop guid getRequests).1, ∃ request ∈ getRequests,
    request' = request.removeResponse guid ∧ request'.missing ≠ []
  kept : ∀ request ∈ getRequests, (request.removeResponse guid).missing ≠ [] →
    request.removeResponse guid ∈ (closeLoop guid getRequests).1
  ids : List.Sublist ((closeLoop guid getRequests).1.map GetRequest.requestId)
    (getRequests.map GetRequest.requestId)
  unsent : ∀ id, (∀ request ∈ getRequests, request.requestId = id →
    (request.removeResponse guid).missing ≠ []) →
      (closeLoop guid getRequests).2.filter (fun message => message.2 = id) = []
  sent : ∀ request ∈ getRequests, (request.removeResponse guid).missing = [] →
    (closeLoop guid getRequests).2.filter (fun message => message.2 = request.requestId) =
      [(request.requestingClient, request.requestId)]

theorem closed_closeLoop (guid : ℕ) {getRequests : List GetRequest}
    (hincomplete : ∀ request ∈ getRequests, request.missing ≠ [])
    (hdistinct : (getRequests.map GetRequest.requestId).Nodup) : Closed guid getRequests := by
  induction getRequests with
  | nil =>
    exact ⟨fun _ hmem => absurd hmem List.not_mem_nil, fun _ hmem => absurd hmem List.not_mem_nil,
      List.Sublist.refl _, fun _ _ => rfl, fun _ hmem => absurd hmem List.not_mem_nil⟩
  | cons request getRequests ih =>
    rw [List.map_cons, List.nodup_cons] at hdistinct
    obtain ⟨hleft, hkept, hids, hunsent, hsent⟩ := ih
      (fun other hother => hincomplete other (List.mem_cons_of_mem _ hother)) hdistinct.2
    have hcons := closeLoop_cons guid (hincomplete request List.mem_cons_self) getRequests
    have hfirst : ∀ other ∈ getRequests, other.requestId ≠ request.requestId := by
      intro other hother heq
      exact hdistinct.1 (heq ▸ List.mem_map_of_mem hother)
    by_cases hdone : (request.removeResponse guid).missing = []
    · rw [if_pos hdone] at hcons
      refine ⟨fun other hother => ?_, fun other hother hne => ?_, ?_, fun id hid => ?_,
        fun other hother hnil => ?_⟩
      · rw [hcons] at hother
        obtain ⟨source, hsource, hsame⟩ := hleft other hother
        exact ⟨source, List.mem_cons_of_mem _ hsource, hsame⟩
      · rw [hcons]
        rcases List.mem_cons.mp hother with rfl | hother
        · exact absurd hdone hne
        · exact hkept other hother hne
      · rw [hcons]
        exact hids.cons _
      · have hne : request.requestId ≠ id := fun heq =>
          hid request List.mem_cons_self heq hdone
        rw [hcons, List.filter_cons_of_neg (by simpa using hne)]
        exact hunsent id fun other hother => hid other (List.mem_cons_of_mem _ hother)
      · rw [hcons]
        rcases List.mem_cons.mp hother with rfl | hother
        · rw [List.filter_cons_of_pos (by simp),
            hunsent other.requestId fun source hsource heq => absurd heq (hfirst source hsource)]
        · rw [List.filter_cons_of_neg (by simpa using (hfirst other hother).symm)]
          exact hsent other hother hnil
    · rw [if_neg hdone] at hcons
      refine ⟨fun other hother => ?_, fun other hother hne => ?_, ?_, fun id hid => ?_,
        fun other hother hnil => ?_⟩
      · rw [hcons] at hother
        rcases List.mem_cons.mp hother with rfl | hother
        · exact ⟨request, List.mem_cons_self, rfl, hdone⟩
        · obtain ⟨source, hsource, hsame⟩ := hleft other hother
          exact ⟨source, List.mem_cons_of_mem _ hsource, hsame⟩
      · rw [hcons]
        rcases List.mem_cons.mp hother with rfl | hother
        · exact List.mem_cons_self
        · exact List.mem_cons_of_mem _ (hkept other hother hne)
      · rw [hcons]
        exact hids.cons_cons _
      · rw [hcons]
        exact hunsent id fun other hother => hid other (List.mem_cons_of_mem _ hother)
      · rw [hcons]
        rcases List.mem_cons.mp hother with rfl | hother
        · exact absurd hnil hdone
        · exact hsent other hother hnil

theorem Sound.closedConnection (h : w.Sound) (guid : ℕ) :
    (w.perform (.closedConnection guid)).Sound := by
  rw [perform, onClosedConnection]
  by_cases hremote : w.server.isRemoteServer guid = true
  · rw [if_pos hremote]
    have hclosed := closed_closeLoop guid h.incomplete h.distinct
    have hmissing : ∀ request ∈ w.server.getRequests, (request.removeResponse guid).missing =
        (w.waiting request.requestId).filter fun server => server ≠ guid := by
      intro request hrequest
      rw [GetRequest.missing_removeResponse, h.waiting request hrequest]
    refine h.progress ⟨rfl, rfl, fun request' hrequest' => ?_, fun request hrequest hne => ?_,
      h.distinct.sublist hclosed.ids, fun id => ?_, fun id hid => ?_, fun id server hserver => ?_⟩
    · obtain ⟨request, hrequest, rfl, hne⟩ := hclosed.left request' hrequest'
      exact ⟨request, hrequest, rfl, rfl, rfl, hmissing request hrequest, hne⟩
    · refine ⟨_, hclosed.kept request hrequest ?_, rfl⟩
      rw [hmissing request hrequest]
      exact hne
    · show (w.server.sent ++ _).filter _ = w.server.sent.filter _ ++ _
      rw [List.filter_append]
      congr 1
      by_cases hcond : w.waiting id ≠ [] ∧
          (w.waiting id).filter (fun server => server ≠ guid) = []
      · obtain ⟨request, hrequest, rfl⟩ := h.listed id hcond.1
        rw [if_pos hcond, ← h.client request hrequest]
        exact hclosed.sent request hrequest ((hmissing request hrequest).trans hcond.2)
      · rw [if_neg hcond]
        refine hclosed.unsent id fun request hrequest heq hnil => hcond ?_
        rw [hmissing request hrequest, heq] at hnil
        refine ⟨?_, hnil⟩
        rw [← heq, h.waiting request hrequest]
        exact h.incomplete request hrequest
    · rw [hid]
      rfl
    · obtain ⟨hmem, hne⟩ := List.mem_filter.mp hserver
      have hold := h.servers id server hmem
      obtain ⟨remote, hremoteMem, heq⟩ := List.any_eq_true.mp hold
      refine List.any_eq_true.mpr ⟨remote, List.mem_filter.mpr ⟨hremoteMem, ?_⟩, heq⟩
      simp only [decide_eq_true_eq] at heq hne ⊢
      rw [heq]
      exact hne
  · rw [if_neg hremote]
    have hsame : (fun id => (w.waiting id).filter fun server => server ≠ guid) = w.waiting := by
      funext id
      rw [List.filter_eq_self]
      intro server hserver
      simp only [decide_eq_true_eq]
      rintro rfl
      exact hremote (h.servers id server hserver)
    rw [hsame]
    exact h

theorem Sound.update (h : w.Sound) {now : ℕ} (hhandled : w.Handled (.update now)) :
    (w.perform (.update now)).Sound := by
  have hserver : w.server.update = w.server := by
    rw [CloudGetServer.update, h.check]
    rfl
  rw [perform, hserver]
  refine { h with overdue := fun id hid => ?_ }
  rcases Bool.or_eq_true _ _ ▸ hid with hold | hnew
  · exact h.overdue id hold
  · rw [Bool.and_eq_true, decide_eq_true_eq, decide_eq_true_eq] at hnew
    refine ⟨hnew.1, ?_⟩
    by_contra hne
    obtain ⟨request, hrequest, rfl⟩ := h.listed id hne
    have hin := hhandled request hrequest
    rw [h.start request hrequest] at hin
    exact absurd hnew.2 (by omega)

theorem Sound.changeServers (h : w.Sound) {remoteServers : List RemoteServer}
    (hkept : ∀ server, w.server.isRemoteServer server = true →
      (remoteServers.any fun remote => remote.serverAddress = server) = true) :
    ({ w with server := { w.server with remoteServers := remoteServers } } : GetRun).Sound :=
  { h with servers := fun id server hserver => hkept server (h.servers id server hserver) }

theorem Sound.addServer (h : w.Sound) (guid : ℕ) : (w.perform (.addServer guid)).Sound := by
  rw [perform, CloudGetServer.addServer]
  split
  · exact h
  · refine h.changeServers fun server hserver => ?_
    obtain ⟨remote, hremote, heq⟩ := List.any_eq_true.mp hserver
    refine List.any_eq_true.mpr ⟨remote, ?_, heq⟩
    have hsplit := List.takeWhile_append_dropWhile
      (p := fun server : RemoteServer => decide (server.serverAddress < guid))
      (l := w.server.remoteServers)
    rw [← hsplit] at hremote
    rw [List.mem_append, List.mem_cons]
    rcases List.mem_append.mp hremote with hfront | hback
    · exact Or.inl hfront
    · exact Or.inr (Or.inr hback)

theorem Sound.setUploadedKeys (h : w.Sound) (guid : ℕ) (keys : List CloudKey) :
    (w.perform (.setUploadedKeys guid keys)).Sound := by
  refine h.changeServers fun server hserver => ?_
  obtain ⟨remote, hremote, heq⟩ := List.any_eq_true.mp hserver
  refine List.any_eq_true.mpr ⟨_, List.mem_map_of_mem hremote, ?_⟩
  simp only [decide_eq_true_eq] at heq ⊢
  split
  · rename_i hguid
    exact hguid.symm.trans heq
  · exact heq

theorem Sound.perform (h : w.Sound) {op : Operation} (hop : w.Allowed op) :
    (w.perform op).Sound := by
  cases op with
  | get client keys now => exact h.get hop.1.1 hop.1.2
  | response guid requestId => exact h.response hop.2
  | closedConnection guid => exact h.closedConnection guid
  | update now => exact h.update hop.2
  | addServer guid => exact h.addServer guid
  | setUploadedKeys guid keys => exact h.setUploadedKeys guid keys

theorem Reachable.sound (h : Reachable w) : w.Sound :=
  GuardedRun.Reachable.invariant h sound_initial fun _ _ hs hop => hs.perform hop

/-- Every request is answered once where the search finds those that are answered and no request
waits for long. -/
theorem gets_answered (h : Reachable w) : w.Answered := h.sound.answered

/-- A request that a server is asked about, which answers. -/
def answeredRun : List Operation := [.addServer 7, .get 1 [⟨[107], 1⟩] 10, .response 7 0]

theorem reachable_answeredRun : Reachable (answeredRun.foldl perform initial) :=
  GuardedRun.Reachable.run .start
    ⟨⟨trivial, trivial⟩, ⟨⟨by decide, by decide⟩, trivial⟩, ⟨trivial, fun _ => by decide⟩, trivial⟩

theorem gets_answered_once : (answeredRun.foldl perform initial).Answered :=
  gets_answered reachable_answeredRun

/-- A server that does not answer. -/
def silentRun : List Operation := [.addServer 7, .get 1 [⟨[107], 1⟩] 10, .update 5000]

theorem silent_not_answered :
    ¬ ∀ operations : List Operation, GuardedRun.EachAllowed perform Possible initial operations →
      (operations.foldl perform initial).Answered := by
  intro h
  have hanswered := h silentRun
    ⟨trivial, ⟨by decide, by decide⟩, trivial, trivial⟩ 0 (by decide)
  exact hanswered.2.1 (Or.inr (by decide)) (by decide)

end GetRun

end SLikeNet
