import SLikeNet.MessageTimes
import SLikeNet.SlotTransitions

/-! The messages that one input makes a peer send, case by case, and what one input does to the
ring of pings of a slot. -/

namespace SLikeNet

open RemoteSystems (Inv)

namespace RakPeer

variable {cfg : PeerConfig}

/-- The mode does not keep a message from being sent. -/
def TakesMessages (m : ConnectMode) : Prop :=
  m ≠ .disconnectAsap ∧ m ≠ .disconnectAsapSilently ∧ m ≠ .disconnectOnNoAck

instance (m : ConnectMode) : Decidable (TakesMessages m) :=
  inferInstanceAs (Decidable
    (m ≠ .disconnectAsap ∧ m ≠ .disconnectAsapSilently ∧ m ≠ .disconnectOnNoAck))

/-- The timestamp that `replyToConnectionRequest` gives back. -/
def echoedTimestamp (data : List UInt8) (u : Uninitialised) : UInt64 :=
  (readUInt64 (data.drop (1 + 16 + 8))).1.getD u.incomingTimestamp

/-- A message that an input makes a peer send, and to whom. -/
inductive Sends (cfg : PeerConfig) (s : RakPeer) :
    PeerInput → SystemAddress → List UInt8 → Prop
  | notification (sa : SystemAddress) :
      Sends cfg s (.notifyAndFlagForShutdown sa) sa [MessageID.disconnectionNotification]
  | request (sender : Sender) (d : Datagram) (env : ReceiveEnv) (password : List UInt8) :
      Sends cfg s (.datagram sender d env) sender.systemAddress
        (connectionRequestMessage cfg.myGuid env.time password)
  | ping (i : ℕ) (env : UpdateEnv) :
      Sends cfg s (.update i env) (s.addressOf i) (connectedPingMessage env.time)
  | refuse (i : ℕ) (data : List UInt8) (env : MessageEnv) :
      Sends cfg s (.message i data env) (s.addressOf i)
        (MessageID.invalidPassword :: cfg.myGuid.bytes)
  | accept (i : ℕ) (data : List UInt8) (env : MessageEnv) (timestamp : UInt64) (systemIndex : ℕ)
      (hid : data.head? = some MessageID.connectionRequest)
      (htime : requestTime data = some timestamp) :
      Sends cfg s (.message i data env) (s.addressOf i)
        (connectionRequestAcceptedMessage cfg (s.addressOf i) systemIndex timestamp env.time)
  /-- The request comes from a system that is past it. -/
  | acceptAgain (i : ℕ) (data : List UInt8) (env : MessageEnv) (systemIndex : ℕ)
      (hactive : s.Active i) (hid : data.head? = some MessageID.connectionRequest)
      (hmode : ¬ ReadsPassword (s.slot i).connectMode) (htakes : TakesMessages (s.slot i).connectMode) :
      Sends cfg s (.message i data env) (s.addressOf i)
        (connectionRequestAcceptedMessage cfg (s.addressOf i) systemIndex
          (echoedTimestamp data env.uninitialised) env.time)
  | confirm (i : ℕ) (data : List UInt8) (env : MessageEnv)
      (hid : data.head? = some MessageID.connectionRequestAccepted) :
      Sends cfg s (.message i data env) (s.addressOf i)
        (newIncomingConnectionMessage cfg (s.addressOf i) (acceptedTimes data env.uninitialised).2
          env.time)
  | firstPing (i : ℕ) (data : List UInt8) (env : MessageEnv) :
      Sends cfg s (.message i data env) (s.addressOf i) (connectedPingMessage env.time)
  | pong (i : ℕ) (data : List UInt8) (env : MessageEnv)
      (hid : data.head? = some MessageID.connectedPing) (hlength : data.length = 1 + 8) :
      Sends cfg s (.message i data env) (s.addressOf i)
        (connectedPongMessage ((pingTime data).getD []) env.time)

/-- Every message that one state has sent and the other has not is among these. -/
def SendsOnly (s t : RakPeer) (among : SystemAddress → List UInt8 → Prop) : Prop :=
  ∀ sa data, Sent.message sa data ∈ t.sent → Sent.message sa data ∈ s.sent ∨ among sa data

theorem SendsOnly.of_eq {s t : RakPeer} {among : SystemAddress → List UInt8 → Prop}
    (h : t.sent = s.sent) : SendsOnly s t among :=
  fun _ _ hmem => Or.inl (h ▸ hmem)

theorem SendsOnly.trans {s t t' : RakPeer} {among : SystemAddress → List UInt8 → Prop}
    (h : SendsOnly s t among) (h' : SendsOnly t t' among) : SendsOnly s t' among := by
  intro sa data hmem
  rcases h' sa data hmem with hold | hnew
  · exact h sa data hold
  · exact Or.inr hnew

theorem SendsOnly.ite {s a b : RakPeer} {among : SystemAddress → List UInt8 → Prop} {c : Prop}
    [Decidable c] (ha : c → SendsOnly s a among) (hb : ¬ c → SendsOnly s b among) :
    SendsOnly s (if c then a else b) among := by
  by_cases hc : c
  · rw [if_pos hc]
    exact ha hc
  · rw [if_neg hc]
    exact hb hc

theorem SendsOnly.datagram {s t : RakPeer} {among : SystemAddress → List UInt8 → Prop}
    {sa : SystemAddress} {data : List UInt8} (h : t.sent = s.sent ++ [.datagram sa data]) :
    SendsOnly s t among := by
  intro sa' data' hmem
  rw [h, List.mem_append, List.mem_singleton] at hmem
  exact hmem.imp_right Sent.noConfusion

theorem sendsOnly_sendImmediate (s : RakPeer) (sa : SystemAddress) (data : List UInt8)
    {among : SystemAddress → List UInt8 → Prop}
    (h : ∀ i, s.systems.getRemoteSystemIndex cfg sa = some i →
      TakesMessages (s.slot i).connectMode → among sa data) :
    SendsOnly s (s.sendImmediate cfg sa data) among := by
  unfold sendImmediate
  split
  · exact .of_eq rfl
  · rename_i i hfind
    refine SendsOnly.ite (fun htakes sa' data' hmem => ?_) fun _ => .of_eq rfl
    rcases List.mem_append.mp hmem with hold | hnew
    · exact Or.inl hold
    · obtain ⟨rfl, rfl⟩ := Sent.message.inj (List.mem_singleton.mp hnew)
      exact Or.inr (h i hfind htakes.2)

theorem SendsOnly.sendImmediate {s t : RakPeer} {among : SystemAddress → List UInt8 → Prop}
    (h : SendsOnly s t among) {sa : SystemAddress} {data : List UInt8} (hamong : among sa data) :
    SendsOnly s (t.sendImmediate cfg sa data) among :=
  h.trans (sendsOnly_sendImmediate t sa data fun _ _ _ => hamong)

/-! ### Offline messages -/

theorem sendsOnly_sendConnectionRequestTo (s : RakPeer) (env : ReceiveEnv) (i : ℕ)
    (rcs : RequestedConnectionStruct) (sender : Sender) (d : Datagram) (s₀ : RakPeer) :
    SendsOnly s (s.sendConnectionRequestTo cfg env i rcs sender.systemAddress)
      (Sends cfg s₀ (.datagram sender d env)) := by
  have hmarked : SendsOnly s (s.markRequested i) (Sends cfg s₀ (.datagram sender d env)) :=
    .of_eq rfl
  exact hmarked.sendImmediate (.request sender d env _)

theorem sendsOnly_openConnectionReply2 (s : RakPeer) (sender : Sender) (d : Datagram)
    (env : ReceiveEnv) :
    SendsOnly s (s.openConnectionReply2 cfg env sender.systemAddress d).peer
      (Sends cfg s (.datagram sender d env)) := by
  unfold openConnectionReply2
  dsimp only
  split
  · exact .of_eq rfl
  · rename_i rcs _
    split
    · rename_i i _
      exact (sendsOnly_sendConnectionRequestTo s env i rcs sender d s).trans (.of_eq rfl)
    · split
      · exact .of_eq rfl
      · exact .of_eq rfl
      · rename_i i systems _
        exact (sendsOnly_sendConnectionRequestTo { s with systems := systems } env i rcs sender d
          s).trans (.of_eq rfl)

theorem sendsOnly_openConnectionRequest2 (s : RakPeer) (sa : SystemAddress) (d : Datagram)
    (env : ReceiveEnv) (among : SystemAddress → List UInt8 → Prop) :
    SendsOnly s (s.openConnectionRequest2 cfg env sa d).peer among := by
  unfold openConnectionRequest2
  dsimp only
  split
  · exact .datagram rfl
  · exact .datagram rfl
  · split
    · split <;> exact .datagram rfl
    · exact .datagram rfl

theorem sendsOnly_datagram (s : RakPeer) (sender : Sender) (d : Datagram) (env : ReceiveEnv) :
    SendsOnly s (s.processOfflineNetworkPacket cfg env sender.systemAddress d).2.peer
      (Sends cfg s (.datagram sender d env)) := by
  unfold processOfflineNetworkPacket
  split
  · exact .datagram rfl
  split
  · dsimp only
    unfold processOfflineMessage
    split
    · unfold unconnectedPing
      split
      · exact .datagram rfl
      · exact .of_eq rfl
    split
    · exact .of_eq rfl
    split
    · exact .of_eq rfl
    split
    · unfold openConnectionReply1
      dsimp only
      split
      · exact .of_eq rfl
      · exact .datagram rfl
    split
    · exact sendsOnly_openConnectionReply2 s sender d env
    split
    · unfold connectionFailureReply
      dsimp only
      split <;> exact .of_eq rfl
    split
    · unfold openConnectionRequest1
      split <;> exact .datagram rfl
    split
    · exact sendsOnly_openConnectionRequest2 s _ d env _
    · exact .of_eq rfl
  · exact .of_eq rfl

/-! ### Messages -/

theorem sendsOnly_parseConnectionRequestPacket (s : RakPeer) (i : ℕ) {data : List UInt8}
    (env : MessageEnv) (hid : data.head? = some MessageID.connectionRequest) :
    SendsOnly s (s.parseConnectionRequestPacket cfg i data env)
      (Sends cfg s (.message i data env)) := by
  unfold parseConnectionRequestPacket
  dsimp only
  split
  · exact .of_eq rfl
  · rename_i timestamp htime
    refine SendsOnly.ite (fun _ => ?_) fun _ => ?_
    · have haddress : ((s.setConnectMode i .handlingConnectionRequest).remoteSystem
          i).systemAddress = s.addressOf i := by
        have hslot := slot_setConnectMode s i i .handlingConnectionRequest
        rw [if_pos rfl] at hslot
        exact congrArg Slot.systemAddress hslot
      have hmode : SendsOnly s (s.setConnectMode i .handlingConnectionRequest)
          (Sends cfg s (.message i data env)) := .of_eq rfl
      unfold onConnectionRequest
      dsimp only
      rw [haddress]
      exact hmode.sendImmediate (.accept i data env timestamp _ hid htime)
    · have hrefuse : SendsOnly s (s.sendImmediate cfg (s.addressOf i)
          (MessageID.invalidPassword :: cfg.myGuid.bytes)) (Sends cfg s (.message i data env)) :=
        SendsOnly.sendImmediate (.of_eq rfl) (.refuse i data env)
      exact hrefuse.trans (.of_eq rfl)

theorem sendsOnly_replyToConnectionRequest {s : RakPeer} (h : Inv cfg s.systems) {i : ℕ}
    {data : List UInt8} (env : MessageEnv) (hactive : s.Active i)
    (hid : data.head? = some MessageID.connectionRequest)
    (hmode : ¬ ReadsPassword (s.slot i).connectMode) :
    SendsOnly s (s.replyToConnectionRequest cfg i data env)
      (Sends cfg s (.message i data env)) := by
  refine sendsOnly_sendImmediate s _ _ fun j hfind htakes => ?_
  obtain rfl : i = j := Option.some.inj ((h.found hactive).symm.trans hfind)
  exact .acceptAgain i data env _ hactive hid hmode htakes

theorem sendsOnly_newIncomingConnection (s : RakPeer) (i : ℕ) (data : List UInt8)
    (env : MessageEnv) :
    SendsOnly s (s.newIncomingConnection cfg i data env) (Sends cfg s (.message i data env)) := by
  have hmode : SendsOnly s (s.setConnectMode i .connected) (Sends cfg s (.message i data env)) :=
    .of_eq rfl
  have hping : SendsOnly s ((s.setConnectMode i .connected).pingInternal cfg (s.addressOf i)
      env.time) (Sends cfg s (.message i data env)) :=
    hmode.sendImmediate (.firstPing i data env)
  refine hping.trans (.of_eq ?_)
  unfold newIncomingConnection setFirstExternalID
  dsimp only
  split <;> rfl

theorem sent_acceptConnection (s : RakPeer) (i : ℕ) (data : List UInt8) (env : MessageEnv) :
    (s.acceptConnection i data env).sent = s.sent := by
  unfold acceptConnection setFirstExternalID
  dsimp only
  split <;> rfl

theorem sendsOnly_connectionRequestAccepted (s : RakPeer) (i : ℕ) {data : List UInt8}
    (env : MessageEnv) (hid : data.head? = some MessageID.connectionRequestAccepted) :
    SendsOnly s (s.connectionRequestAccepted cfg i data env)
      (Sends cfg s (.message i data env)) := by
  unfold connectionRequestAccepted
  dsimp only
  have haccept : SendsOnly s (s.acceptConnection i data env) (Sends cfg s (.message i data env)) :=
    .of_eq (sent_acceptConnection s i data env)
  have hconfirm : ∀ packet, SendsOnly s (((s.acceptConnection i data env).addPacketToProducer
      packet).sendImmediate cfg (s.addressOf i) (newIncomingConnectionMessage cfg (s.addressOf i)
        (acceptedTimes data env.uninitialised).2 env.time)) (Sends cfg s (.message i data env)) := by
    intro packet
    refine SendsOnly.sendImmediate (haccept.trans ?_) (.confirm i data env hid)
    exact .of_eq rfl
  refine SendsOnly.ite (fun _ => ?_) fun _ => ?_
  · exact hconfirm _
  · refine SendsOnly.sendImmediate (hconfirm _) ?_
    exact .firstPing i data env

theorem sendsOnly_message {s : RakPeer} (h : Inv cfg s.systems) (i : ℕ) (data : List UInt8)
    (env : MessageEnv) :
    SendsOnly s (s.receiveMessage cfg i data env) (Sends cfg s (.message i data env)) := by
  unfold receiveMessage
  cases data with
  | nil => exact .of_eq rfl
  | cons id rest =>
    dsimp only
    refine SendsOnly.ite (fun _ => .of_eq rfl) fun hlive => ?_
    have hactive : s.Active i := by
      have := (not_or.mp hlive).1
      rwa [Bool.not_eq_false] at this
    have hhead : ∀ {x : UInt8}, id = x → (id :: rest).head? = some x := fun heq => congrArg some heq
    refine SendsOnly.ite (fun _ => ?_) fun hverified => ?_
    · refine SendsOnly.ite (fun hid => ?_) fun _ => .of_eq rfl
      exact sendsOnly_parseConnectionRequestPacket s i env (hhead hid)
    unfold processMessage
    dsimp only
    refine SendsOnly.ite (fun hid => ?_) fun _ => ?_
    · refine SendsOnly.ite (fun _ => ?_) fun hrequested => ?_
      · exact sendsOnly_parseConnectionRequestPacket s i env (hhead hid)
      · exact sendsOnly_replyToConnectionRequest h env hactive (hhead hid)
          (not_or.mpr ⟨hverified, hrequested⟩)
    refine SendsOnly.ite (fun _ => ?_) fun _ => ?_
    · exact SendsOnly.ite (fun _ => sendsOnly_newIncomingConnection s i _ env) fun _ => .of_eq rfl
    refine SendsOnly.ite (fun _ => .of_eq rfl) fun _ => ?_
    refine SendsOnly.ite (fun hping => ?_) fun _ => ?_
    · exact SendsOnly.sendImmediate (.of_eq rfl) (.pong i _ env (hhead hping.1) hping.2)
    refine SendsOnly.ite (fun _ => .of_eq rfl) fun _ => ?_
    refine SendsOnly.ite (fun _ => .of_eq rfl) fun _ => ?_
    refine SendsOnly.ite (fun _ => ?_) fun _ => ?_
    · exact SendsOnly.ite (fun _ => .of_eq rfl) fun _ => .of_eq rfl
    refine SendsOnly.ite (fun hid => ?_) fun _ => ?_
    · refine SendsOnly.ite (fun _ => ?_) fun _ => .of_eq rfl
      exact sendsOnly_connectionRequestAccepted s i env (hhead hid)
    exact SendsOnly.ite (fun _ => .of_eq rfl) fun _ => .of_eq rfl

theorem datagram_of_processRequest {requests : List RequestedConnectionStruct} {timeMS : ℕ}
    {outcome : SystemAddress → SendOutcome} {m : Sent}
    (h : m ∈ ((requests.map fun rcs =>
      processRequest timeMS (outcome rcs.systemAddress) rcs).map ProcessedRequest.sent).flatten)
    (sa : SystemAddress) (data : List UInt8) : m ≠ .message sa data := by
  obtain ⟨sent, hsent, hm⟩ := List.mem_flatten.mp h
  obtain ⟨processed, hprocessed, rfl⟩ := List.mem_map.mp hsent
  obtain ⟨rcs, -, rfl⟩ := List.mem_map.mp hprocessed
  rintro rfl
  unfold processRequest at hm
  split at hm
  · dsimp only at hm
    split at hm
    · exact List.not_mem_nil hm
    · exact Sent.noConfusion (List.mem_singleton.mp hm)
  · exact List.not_mem_nil hm

theorem sendsOnly_step {s : RakPeer} (h : Inv cfg s.systems) (input : PeerInput) :
    SendsOnly s (s.step cfg input) (Sends cfg s input) := by
  cases input with
  | connect c =>
    refine .of_eq ?_
    show (s.sendConnectionRequest cfg c).2.sent = s.sent
    unfold sendConnectionRequest
    split
    · rfl
    · split <;> rfl
  | cancelConnectionAttempt target => exact .of_eq rfl
  | notifyAndFlagForShutdown sa =>
    have hnotified : SendsOnly s (s.sendImmediate cfg sa [MessageID.disconnectionNotification])
        (Sends cfg s (.notifyAndFlagForShutdown sa)) :=
      SendsOnly.sendImmediate (.of_eq rfl) (.notification sa)
    refine hnotified.trans (.of_eq ?_)
    show ((s.sendImmediate cfg sa [MessageID.disconnectionNotification]).flagForShutdown cfg
      sa).sent = _
    unfold flagForShutdown
    split <;> rfl
  | closeConnection target => exact .of_eq rfl
  | datagram sender d env => exact sendsOnly_datagram s sender d env
  | maliciousDatagram sa => exact .of_eq rfl
  | requestConnections timeMS outcome =>
    intro sa data hmem
    refine (List.mem_append.mp hmem).imp_right fun hnew => ?_
    exact absurd rfl (datagram_of_processRequest hnew sa data)
  | update i env =>
    show SendsOnly s (s.updateRemoteSystem cfg i env) _
    unfold updateRemoteSystem
    refine SendsOnly.ite (fun _ => ?_) fun _ => .of_eq rfl
    refine SendsOnly.ite (fun _ => ?_) fun _ => ?_
    · refine .of_eq ?_
      show (s.notifyFailure i).sent = s.sent
      unfold notifyFailure
      split <;> rfl
    · refine SendsOnly.ite (fun _ => ?_) fun _ => .of_eq rfl
      exact SendsOnly.sendImmediate (.of_eq rfl) (.ping i env)
  | message i data env => exact sendsOnly_message h i data env

/-! ### Pings -/

def unwritten : PingAndClockDifferential := ⟨65535, 0⟩

/-- What one input does to the ring of pings of a slot. -/
inductive PingStep (s : RakPeer) (i : ℕ) (input : PeerInput) (x : Slot) : Prop
  | same (haddress : x.systemAddress = s.addressOf i) (hactive : x.isActive = true → s.Active i)
      (hpings : x.pingAndClockDifferential = (s.slot i).pingAndClockDifferential)
      (hindex : x.pingAndClockDifferentialWriteIndex = (s.slot i).pingAndClockDifferentialWriteIndex)
  | fresh (hinactive : ¬ s.Active i) (hactive : x.isActive = true)
      (hpings : x.pingAndClockDifferential = fun _ => unwritten)
      (hindex : x.pingAndClockDifferentialWriteIndex.val = 0)
  | recorded (data : List UInt8) (env : MessageEnv) (times : UInt64 × UInt64)
      (hinput : input = .message i data env) (hactive : s.Active i)
      (haddress : x.systemAddress = s.addressOf i)
      (htimes : answerTimes data env.uninitialised = some times)
      (hpings : x.pingAndClockDifferential =
        Function.update (s.slot i).pingAndClockDifferential
          (s.slot i).pingAndClockDifferentialWriteIndex (pingOf times.1 times.2 env.time))
      (hindex : x.pingAndClockDifferentialWriteIndex =
        nextWriteIndex (s.slot i).pingAndClockDifferentialWriteIndex)

theorem answerTimes_accepted {data : List UInt8} (u : Uninitialised)
    (hid : data.head? = some MessageID.connectionRequestAccepted) :
    answerTimes data u = some (acceptedTimes data u) :=
  if_pos hid

theorem answerTimes_newIncoming {data : List UInt8} (u : Uninitialised)
    (hid : data.head? = some MessageID.newIncomingConnection) :
    answerTimes data u = some (newIncomingTimes data u) := by
  unfold answerTimes
  rw [hid, if_neg (by decide), if_pos rfl]

theorem answerTimes_pong {data : List UInt8} (u : Uninitialised)
    (hid : data.head? = some MessageID.connectedPong) :
    answerTimes data u = some (pongTimes data u) := by
  unfold answerTimes
  rw [hid, if_neg (by decide), if_neg (by decide), if_pos rfl]

theorem SlotStep.pingStep {s : RakPeer} {i : ℕ} {input : PeerInput} {x : Slot}
    (h : SlotStep cfg s i input x) : PingStep s i input x := by
  cases h with
  | keep => exact .same rfl id rfl rfl
  | close _ hactive => exact .same rfl (fun _ => hactive) rfl rfl
  | flag hactive => exact .same rfl (fun _ => hactive) rfl rfl
  | reserve _ _ _ hinactive => exact .fresh hinactive rfl rfl rfl
  | reserveAndRequest _ _ _ hinactive => exact .fresh hinactive rfl rfl rfl
  | request _ _ _ hactive => exact .same rfl (fun _ => hactive) rfl rfl
  | password _ _ hactive => exact .same rfl (fun _ => hactive) rfl rfl
  | wrongPassword _ _ hactive => exact .same rfl (fun _ => hactive) rfl rfl
  | complete data env hactive _ hid =>
    exact .recorded data env _ rfl hactive rfl (answerTimes_newIncoming _ hid) rfl rfl
  | accept data env hactive _ _ hid =>
    exact .recorded data env _ rfl hactive rfl (answerTimes_accepted _ hid) rfl rfl
  | pong data env hactive _ hid =>
    exact .recorded data env _ rfl hactive rfl (answerTimes_pong _ hid) rfl rfl
  | leave _ _ hactive => exact .same rfl (fun _ => hactive) rfl rfl
  | rejected _ _ hactive => exact .same rfl (fun _ => hactive) rfl rfl

end RakPeer

end SLikeNet
