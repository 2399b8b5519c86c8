import SLikeNet.SlotSteps

/-! What one input can do to one slot of the connection table, case by case. Every property of
the connect modes is read off this list. -/

namespace SLikeNet

open RemoteSystems (Inv)

namespace RakPeer

variable {cfg : PeerConfig}

/-- The datagram is handled as an offline message. -/
def TakenOffline (env : ReceiveEnv) (d : Datagram) : Prop :=
  env.isBanned = false ∧ d.isOfflineMessage.1 = true

/-- No active system has the address, it has not connected too recently, and a slot is free. -/
structure Assignable (cfg : PeerConfig) (s : RakPeer) (sa : SystemAddress) (env : ReceiveEnv) :
    Prop where
  unknown : s.systems.getRemoteSystemFromSystemAddress cfg sa = none
  notRecently : s.systems.thisIPConnectedRecently cfg sa env.timeMS = false
  free : ∃ i < cfg.maximumNumberOfPeers, ¬ s.Active i

/-- The GUID of an `ID_OPEN_CONNECTION_REQUEST_2`. -/
def requestGuid (env : ReceiveEnv) (d : Datagram) : RakNetGUID :=
  (readGuid (readUInt16 (readSystemAddress env.uninitialised (d.data.drop (1 + 16))).2.2).2).1

/-- The inputs that close a slot at once. -/
inductive Closes (s : RakPeer) (i : ℕ) : PeerInput → Prop
  | closeConnection : Closes s i (.closeConnection (s.addressOf i))
  | maliciousDatagram : Closes s i (.maliciousDatagram (s.addressOf i))
  | failed (env : UpdateEnv) (hfailed : failed env (s.remoteSystem i) = true) :
      Closes s i (.update i env)
  | notARequest (data : List UInt8) (env : MessageEnv)
      (hmode : (s.slot i).connectMode = .unverifiedSender)
      (hid : data.head? ≠ some MessageID.connectionRequest) : Closes s i (.message i data env)

/-- A mode in which an `ID_CONNECTION_REQUEST` is read for its password. -/
def ReadsPassword (m : ConnectMode) : Prop := m = .unverifiedSender ∨ m = .requestedConnection

instance (m : ConnectMode) : Decidable (ReadsPassword m) :=
  inferInstanceAs (Decidable (m = .unverifiedSender ∨ m = .requestedConnection))

/-- The slot after an input, by what the input did to it. -/
inductive SlotStep (cfg : PeerConfig) (s : RakPeer) (i : ℕ) : PeerInput → Slot → Prop
  | keep (input : PeerInput) : SlotStep cfg s i input (s.slot i)
  | close (input : PeerInput) (hactive : s.Active i) (hcloses : Closes s i input) :
      SlotStep cfg s i input { s.slot i with isActive := false }
  | flag (hactive : s.Active i) :
      SlotStep cfg s i (.notifyAndFlagForShutdown (s.addressOf i))
        { s.slot i with connectMode := .disconnectAsap }
  /-- A system that wants to connect is given the slot. -/
  | reserve (sender : Sender) (d : Datagram) (env : ReceiveEnv) (hinactive : ¬ s.Active i)
      (htaken : TakenOffline env d) (hid : d.id = MessageID.openConnectionRequest2)
      (hguid : s.systems.getRemoteSystemFromGUID cfg (requestGuid env d) = none)
      (hallow : s.allowIncomingConnections cfg = true)
      (hassignable : Assignable cfg s sender.systemAddress env) :
      SlotStep cfg s i (.datagram sender d env)
        (Slot.assigned sender.systemAddress (requestMtu env d))
  /-- A system that we want to connect to is given the slot. -/
  | reserveAndRequest (sender : Sender) (d : Datagram) (env : ReceiveEnv) (hinactive : ¬ s.Active i)
      (htaken : TakenOffline env d) (hid : d.id = MessageID.openConnectionReply2)
      (hrequested : (s.requested sender.systemAddress).isSome = true)
      (hassignable : Assignable cfg s sender.systemAddress env) :
      SlotStep cfg s i (.datagram sender d env)
        (Slot.assigned sender.systemAddress (replyMtu env d)).requested
  /-- A system that we want to connect to has the slot already. -/
  | request (sender : Sender) (d : Datagram) (env : ReceiveEnv) (hactive : s.Active i)
      (haddress : s.addressOf i = sender.systemAddress) (htaken : TakenOffline env d)
      (hid : d.id = MessageID.openConnectionReply2)
      (hrequested : (s.requested sender.systemAddress).isSome = true) :
      SlotStep cfg s i (.datagram sender d env) (s.slot i).requested
  | password (data : List UInt8) (env : MessageEnv) (hactive : s.Active i)
      (hmode : ReadsPassword (s.slot i).connectMode)
      (hpassword : CarriesPassword data cfg.incomingPassword) :
      SlotStep cfg s i (.message i data env)
        { s.slot i with connectMode := .handlingConnectionRequest }
  | wrongPassword (data : List UInt8) (env : MessageEnv) (hactive : s.Active i)
      (hmode : ReadsPassword (s.slot i).connectMode)
      (hid : data.head? = some MessageID.connectionRequest)
      (hpassword : ¬ CarriesPassword data cfg.incomingPassword) :
      SlotStep cfg s i (.message i data env)
        { s.slot i with connectMode := .disconnectAsapSilently }
  /-- A handshake that the other system began is complete. -/
  | complete (data : List UInt8) (env : MessageEnv) (hactive : s.Active i)
      (hmode : (s.slot i).connectMode = .handlingConnectionRequest)
      (hid : data.head? = some MessageID.newIncomingConnection)
      (hlength : data.length > 1 + 4 + 2 + 8 * 2) :
      SlotStep cfg s i (.message i data env)
        { (s.slot i).recordPong (newIncomingTimes data env.uninitialised) env.time with
          connectMode := .connected }
  /-- A handshake that this system began is complete. -/
  | accept (data : List UInt8) (env : MessageEnv) (hactive : s.Active i)
      (hmode : (s.slot i).connectMode ≠ .unverifiedSender)
      (hallow : allowConnection cfg (s.slot i).connectMode = true)
      (hid : data.head? = some MessageID.connectionRequestAccepted)
      (hlength : data.length > 1 + 4 + 2 + 2 + 8 * 2) :
      SlotStep cfg s i (.message i data env)
        { (s.slot i).recordPong (acceptedTimes data env.uninitialised) env.time with
          connectMode := .connected }
  | pong (data : List UInt8) (env : MessageEnv) (hactive : s.Active i)
      (hmode : (s.slot i).connectMode ≠ .unverifiedSender)
      (hid : data.head? = some MessageID.connectedPong) (hlength : data.length = 1 + 8 * 2) :
      SlotStep cfg s i (.message i data env)
        ((s.slot i).recordPong (pongTimes data env.uninitialised) env.time)
  | leave (data : List UInt8) (env : MessageEnv) (hactive : s.Active i)
      (hmode : (s.slot i).connectMode ≠ .unverifiedSender)
      (hid : data.head? = some MessageID.disconnectionNotification) :
      SlotStep cfg s i (.message i data env)
        { s.slot i with connectMode := .disconnectOnNoAck }
  | rejected (data : List UInt8) (env : MessageEnv) (hactive : s.Active i)
      (hmode : (s.slot i).connectMode = .requestedConnection)
      (hid : data.head? = some MessageID.invalidPassword) :
      SlotStep cfg s i (.message i data env)
        { s.slot i with connectMode := .disconnectAsapSilently }

theorem SlotStep.of_eq {s : RakPeer} {i : ℕ} {input : PeerInput} {x y : Slot}
    (h : SlotStep cfg s i input x) (heq : y = x) : SlotStep cfg s i input y :=
  heq ▸ h

theorem SlotStep.of_systems {s t : RakPeer} {i : ℕ} {input : PeerInput}
    (h : t.systems = s.systems) : SlotStep cfg s i input (t.slot i) :=
  (SlotStep.keep input).of_eq (slot_congr h i)

theorem slotStep_close {s : RakPeer} (h : Inv cfg s.systems) {i j : ℕ} {input : PeerInput}
    (hactive : s.Active j) (hcloses : Closes s j input) :
    SlotStep cfg s i input ((s.closeConnectionInternal cfg (s.addressOf j)).slot i) := by
  rcases slot_closeConnectionInternal cfg s (s.addressOf j) i with hkeep | ⟨hi, haddress, hclosed⟩
  · exact (SlotStep.keep input).of_eq hkeep
  · obtain rfl : i = j := h.distinct hi hactive haddress
    exact (SlotStep.close input hactive hcloses).of_eq hclosed

theorem slotStep_ite {s a b : RakPeer} {i : ℕ} {input : PeerInput} {c : Prop} [Decidable c]
    (ha : c → SlotStep cfg s i input (a.slot i)) (hb : ¬ c → SlotStep cfg s i input (b.slot i)) :
    SlotStep cfg s i input ((if c then a else b).slot i) := by
  by_cases hc : c
  · rw [if_pos hc]
    exact ha hc
  · rw [if_neg hc]
    exact hb hc

/-! ### Offline messages -/

theorem requestOutcome_allow {s : RakPeer} {x y : Option ℕ}
    (h : s.requestOutcome x y = .allowConnection) : x = none ∧ y = none := by
  unfold requestOutcome at h
  split at h
  · split at h <;> exact RequestOutcome.noConfusion h
  · exact RequestOutcome.noConfusion h
  · exact RequestOutcome.noConfusion h
  · exact ⟨rfl, rfl⟩

variable (cfg) in
theorem systems_openConnectionRequest2 (s : RakPeer) (sa : SystemAddress) (d : Datagram)
    (env : ReceiveEnv) :
    (s.openConnectionRequest2 cfg env sa d).peer.systems = s.systems ∨
      s.systems.getRemoteSystemFromSystemAddress cfg sa = none ∧
        s.systems.getRemoteSystemFromGUID cfg (requestGuid env d) = none ∧
        s.allowIncomingConnections cfg = true ∧
        (s.openConnectionRequest2 cfg env sa d).peer.systems =
          (s.systems.assignSystemAddressToRemoteSystemList cfg sa .unverifiedSender
            (requestMtu env d) (requestGuid env d) env.timeMS).2 := by
  unfold openConnectionRequest2 requestMtu requestGuid
  dsimp only
  split
  · exact Or.inl rfl
  · exact Or.inl rfl
  · rename_i houtcome
    split
    · rename_i hallow
      refine Or.inr ⟨(requestOutcome_allow houtcome).1, (requestOutcome_allow houtcome).2, hallow,
        ?_⟩
      split <;> (rename_i hassign; rw [hassign]; rfl)
    · exact Or.inl rfl

theorem assign_unchanged {s : RakPeer} {sa : SystemAddress} {mtu : ℕ} {guid : RakNetGUID}
    {time : ℕ} {outcome : RemoteSystems.Assignment} {systems : RemoteSystems}
    (h : s.systems.assignSystemAddressToRemoteSystemList cfg sa .unverifiedSender mtu guid time =
      (outcome, systems)) (hnone : ∀ k, outcome ≠ .assigned k) : systems = s.systems := by
  rcases assign_cases sa mtu guid time h with ⟨hsame, -⟩ | ⟨k, houtcome, -⟩
  · exact hsame
  · exact absurd houtcome (hnone k)

/-- The system in a slot is asked for a connection. -/
def markRequested (s : RakPeer) (i : ℕ) : RakPeer :=
  s.modifyRemoteSystem i fun r =>
    { r with weInitiatedTheConnection := true, connectMode := .requestedConnection }

theorem systems_sendConnectionRequestTo (s : RakPeer) (env : ReceiveEnv) (i : ℕ)
    (rcs : RequestedConnectionStruct) (sa : SystemAddress) :
    (s.sendConnectionRequestTo cfg env i rcs sa).systems = (s.markRequested i).systems :=
  systems_sendImmediate _ _ _

theorem slot_markRequested (s : RakPeer) (i j : ℕ) :
    (s.markRequested i).slot j = if j = i then (s.slot i).requested else s.slot j :=
  slot_modifyRemoteSystem s i j _

variable (cfg) in
/-- An `ID_OPEN_CONNECTION_REPLY_2` matters to a pending request only. The slot of the system is
marked as requested, and assigned first where the system has none. -/
theorem systems_openConnectionReply2 (s : RakPeer) (sa : SystemAddress) (d : Datagram)
    (env : ReceiveEnv) :
    (s.openConnectionReply2 cfg env sa d).peer.systems = s.systems ∨
      (s.requested sa).isSome = true ∧
        ((∃ i, s.systems.getRemoteSystemFromSystemAddress cfg sa = some i ∧
          (s.openConnectionReply2 cfg env sa d).peer.systems = (s.markRequested i).systems) ∨
        s.systems.getRemoteSystemFromSystemAddress cfg sa = none ∧
          ∃ guid i systems, s.systems.assignSystemAddressToRemoteSystemList cfg sa
            .unverifiedSender (replyMtu env d) guid env.timeMS = (.assigned i, systems) ∧
            (s.openConnectionReply2 cfg env sa d).peer.systems =
              (({ s with systems := systems } : RakPeer).markRequested i).systems) := by
  unfold openConnectionReply2 replyMtu
  dsimp only
  split
  · exact Or.inl rfl
  · rename_i rcs hrequested
    split
    · rename_i i hfound
      exact Or.inr ⟨by rw [hrequested]; rfl, Or.inl ⟨i, hfound,
        systems_sendConnectionRequestTo s env i rcs sa⟩⟩
    · rename_i hfound
      split
      · rename_i systems hassign
        refine Or.inl (assign_unchanged hassign fun k => ?_)
        exact RemoteSystems.Assignment.noConfusion
      · rename_i systems hassign
        refine Or.inl (assign_unchanged hassign fun k => ?_)
        exact RemoteSystems.Assignment.noConfusion
      · rename_i i systems hassign
        exact Or.inr ⟨by rw [hrequested]; rfl, Or.inr ⟨hfound, _, i, systems, hassign,
          systems_sendConnectionRequestTo _ env i rcs sa⟩⟩

theorem slotStep_openConnectionRequest2 (s : RakPeer) (i : ℕ) (sender : Sender) {d : Datagram}
    {env : ReceiveEnv} (htaken : TakenOffline env d)
    (hid : d.id = MessageID.openConnectionRequest2) :
    SlotStep cfg s i (.datagram sender d env)
      ((s.openConnectionRequest2 cfg env sender.systemAddress d).peer.slot i) := by
  rcases systems_openConnectionRequest2 cfg s sender.systemAddress d env with
    hsame | ⟨hunknown, hguid, hallow, hassigned⟩
  · exact .of_systems hsame
  · generalize hassign : s.systems.assignSystemAddressToRemoteSystemList cfg _ _ _ _ _ = assigned
      at hassigned
    obtain ⟨outcome, systems⟩ := assigned
    rcases assign_cases sender.systemAddress _ _ _ hassign with
      ⟨hsame, -⟩ | ⟨k, -, hk, hinactive, hrecently, hslot⟩
    · exact .of_systems (hassigned.trans hsame)
    · refine SlotStep.of_eq ?_ ((slot_congr (t := { s with systems := systems }) hassigned i).trans
        (hslot i))
      split
      · rename_i hik
        rw [← hik] at hinactive
        exact .reserve sender d env hinactive htaken hid hguid hallow
          ⟨hunknown, hrecently, k, hk, hik ▸ hinactive⟩
      · exact .keep _

theorem slotStep_openConnectionReply2 (s : RakPeer) (i : ℕ) (sender : Sender) {d : Datagram}
    {env : ReceiveEnv} (htaken : TakenOffline env d) (hid : d.id = MessageID.openConnectionReply2) :
    SlotStep cfg s i (.datagram sender d env)
      ((s.openConnectionReply2 cfg env sender.systemAddress d).peer.slot i) := by
  rcases systems_openConnectionReply2 cfg s sender.systemAddress d env with
    hsame | ⟨hrequested, ⟨j, hfound, hmarked⟩ | ⟨hunknown, guid, j, systems, hassign, hmarked⟩⟩
  · exact .of_systems hsame
  · refine SlotStep.of_eq ?_ ((slot_congr hmarked i).trans (slot_markRequested s j i))
    split
    · rename_i hij
      subst hij
      obtain ⟨hactive, haddress⟩ := found_spec hfound
      exact .request sender d env hactive haddress htaken hid hrequested
    · exact .keep _
  · refine SlotStep.of_eq ?_ ((slot_congr hmarked i).trans (slot_markRequested _ j i))
    rcases assign_cases sender.systemAddress _ _ _ hassign with
      ⟨-, hnone⟩ | ⟨k, houtcome, hk, hinactive, hrecently, hslot⟩
    · exact absurd rfl (hnone j)
    · obtain rfl := RemoteSystems.Assignment.assigned.inj houtcome
      rw [hslot i, hslot j, if_pos rfl]
      split
      · rename_i hij
        subst hij
        exact .reserveAndRequest sender d env hinactive htaken hid hrequested
          ⟨hunknown, hrecently, i, hk, hinactive⟩
      · exact .keep _

theorem slotStep_datagram (s : RakPeer) (i : ℕ) (sender : Sender) (d : Datagram)
    (env : ReceiveEnv) :
    SlotStep cfg s i (.datagram sender d env)
      ((s.processOfflineNetworkPacket cfg env sender.systemAddress d).2.peer.slot i) := by
  unfold processOfflineNetworkPacket
  split
  · exact .of_systems rfl
  · rename_i hbanned
    split
    · rename_i hoffline
      have htaken : TakenOffline env d := ⟨eq_false_of_ne_true hbanned, hoffline⟩
      dsimp only
      unfold processOfflineMessage
      split
      · exact .of_systems (systems_unconnectedPing s env _ d)
      · split
        · exact .of_systems rfl
        · split
          · exact .of_systems rfl
          · split
            · exact .of_systems (systems_openConnectionReply1 s env _ d)
            · split
              · rename_i hid
                exact slotStep_openConnectionReply2 s i sender htaken hid
              · split
                · exact .of_systems (systems_connectionFailureReply s _ d)
                · split
                  · exact .of_systems (systems_openConnectionRequest1 s _ d)
                  · split
                    · rename_i hid
                      exact slotStep_openConnectionRequest2 s i sender htaken hid
                    · exact .of_systems rfl
    · exact .of_systems rfl

/-! ### Messages -/

theorem slotStep_parseConnectionRequestPacket {s : RakPeer} (i : ℕ) {j : ℕ} {data : List UInt8}
    (env : MessageEnv) (hactive : s.Active j) (hmode : ReadsPassword (s.slot j).connectMode)
    (hid : data.head? = some MessageID.connectionRequest) :
    SlotStep cfg s i (.message j data env)
      ((s.parseConnectionRequestPacket cfg j data env).slot i) := by
  rcases parseConnectionRequestPacket_cases cfg s j hid env with
    hkeep | ⟨hpassword, hsystems⟩ | ⟨hpassword, hsystems⟩
  · rw [hkeep]
    exact .keep _
  · refine SlotStep.of_eq ?_ ((slot_congr hsystems i).trans (slot_setConnectMode s j i _))
    split
    · rename_i hij
      subst hij
      exact .password data env hactive hmode hpassword
    · exact .keep _
  · refine SlotStep.of_eq ?_ ((slot_congr hsystems i).trans (slot_setConnectMode s j i _))
    split
    · rename_i hij
      subst hij
      exact .wrongPassword data env hactive hmode hid hpassword
    · exact .keep _

theorem slotStep_of_slot {s t : RakPeer} {i j : ℕ} {x : Slot} {input : PeerInput}
    (ht : t.slot i = if i = j then x else s.slot i) (h : SlotStep cfg s j input x) :
    SlotStep cfg s i input (t.slot i) := by
  refine SlotStep.of_eq ?_ ht
  split
  · rename_i hij
    subst hij
    exact h
  · exact .keep input

theorem slotStep_processMessage {s : RakPeer} (i : ℕ) {j : ℕ} {id : UInt8} {data : List UInt8}
    (env : MessageEnv) (hactive : s.Active j)
    (hmode : (s.slot j).connectMode ≠ .unverifiedSender) (hid : data.head? = some id) :
    SlotStep cfg s i (.message j data env) ((s.processMessage cfg j id data env).slot i) := by
  unfold processMessage
  refine slotStep_ite (fun hrequest => ?_) fun _ => ?_
  · rw [hrequest] at hid
    refine slotStep_ite (fun hrequested => ?_) fun _ => ?_
    · exact slotStep_parseConnectionRequestPacket i env hactive (Or.inr hrequested) hid
    · exact .of_systems (systems_replyToConnectionRequest s j data env)
  refine slotStep_ite (fun hincoming => ?_) fun _ => ?_
  · rw [hincoming.1] at hid
    refine slotStep_ite (fun hhandling => ?_) fun _ => ?_
    · exact slotStep_of_slot (slot_newIncomingConnection s j i data env)
        (.complete data env hactive hhandling hid hincoming.2)
    · exact .keep _
  refine slotStep_ite (fun hpong => ?_) fun _ => ?_
  · rw [hpong.1] at hid
    exact slotStep_of_slot (slot_connectedPong s j i data env)
      (.pong data env hactive hmode hid hpong.2)
  refine slotStep_ite (fun _ => ?_) fun _ => ?_
  · exact .of_systems (systems_connectedPing s j data env)
  refine slotStep_ite (fun hleave => ?_) fun _ => ?_
  · rw [hleave] at hid
    exact slotStep_of_slot (slot_setConnectMode s j i _)
      (.leave data env hactive hmode hid)
  refine slotStep_ite (fun _ => ?_) fun _ => ?_
  · exact .keep _
  refine slotStep_ite (fun hinvalid => ?_) fun _ => ?_
  · rw [hinvalid] at hid
    refine slotStep_ite (fun hrequested => ?_) fun _ => ?_
    · exact slotStep_of_slot (slot_setConnectMode (s.addPacketToProducer _) j i _)
        (.rejected data env hactive hrequested hid)
    · exact .keep _
  refine slotStep_ite (fun haccepted => ?_) fun _ => ?_
  · rw [haccepted] at hid
    refine slotStep_ite (fun hallow => ?_) fun _ => ?_
    · exact slotStep_of_slot ((slot_congr (systems_connectionRequestAccepted s j data env)
        i).trans (slot_acceptConnection s j i data env))
        (.accept data env hactive hmode hallow.2 hid hallow.1)
    · exact .keep _
  refine slotStep_ite (fun _ => ?_) fun _ => ?_
  · exact .of_systems (systems_addPacketToProducer s _)
  · exact .keep _

theorem slotStep_receiveMessage {s : RakPeer} (h : Inv cfg s.systems) (i j : ℕ) (data : List UInt8)
    (env : MessageEnv) :
    SlotStep cfg s i (.message j data env) ((s.receiveMessage cfg j data env).slot i) := by
  cases data with
  | nil => exact .keep _
  | cons id rest =>
    unfold receiveMessage
    dsimp only
    split
    · exact .keep _
    · rename_i hlive
      have hactive : s.Active j := eq_true_of_ne_false fun hinactive => hlive (Or.inl hinactive)
      split
      · rename_i hunverified
        split
        · rename_i hrequest
          exact slotStep_parseConnectionRequestPacket i env hactive (Or.inl hunverified)
            (congrArg some hrequest)
        · rename_i hother
          exact slotStep_close h hactive (.notARequest _ env hunverified fun hid =>
            hother (Option.some.inj hid))
      · rename_i hverified
        exact slotStep_processMessage i env hactive hverified rfl

/-! ### Inputs -/

theorem systems_sendConnectionRequest (s : RakPeer) (c : ConnectInput) :
    (s.sendConnectionRequest cfg c).2.systems = s.systems := by
  unfold sendConnectionRequest
  split
  · rfl
  · split <;> rfl

theorem slotStep_updateRemoteSystem {s : RakPeer} (h : Inv cfg s.systems) (i j : ℕ)
    (env : UpdateEnv) :
    SlotStep cfg s i (.update j env) ((s.updateRemoteSystem cfg j env).slot i) := by
  unfold updateRemoteSystem
  split
  · rename_i hactive
    split
    · rename_i hfailed
      have hstep := slotStep_close h (i := i) hactive (Closes.failed env hfailed)
      refine hstep.of_eq (slot_congr ?_ i)
      unfold closeConnectionInternal
      rw [systems_notifyFailure]
      rfl
    · split
      · exact .of_systems (systems_pingInternal s _ _)
      · exact .keep _
  · exact .keep _

theorem slotStep {s : RakPeer} (h : Inv cfg s.systems) (i : ℕ) (input : PeerInput) :
    SlotStep cfg s i input ((s.step cfg input).slot i) := by
  cases input with
  | connect c => exact .of_systems (systems_sendConnectionRequest s c)
  | cancelConnectionAttempt target => exact .of_systems (systems_removeRequest s target)
  | notifyAndFlagForShutdown sa =>
    have hsystems : ((s.notifyAndFlagForShutdown cfg sa).systems) =
        (s.flagForShutdown cfg sa).systems := by
      unfold notifyAndFlagForShutdown flagForShutdown
      rw [systems_sendImmediate]
      split
      · exact systems_sendImmediate s sa _
      · unfold setConnectMode modifyRemoteSystem remoteSystem
        rw [systems_sendImmediate]
    refine SlotStep.of_eq ?_ (slot_congr hsystems i)
    rcases slot_flagForShutdown cfg s sa i with hkeep | ⟨hactive, rfl, hflagged⟩
    · exact (SlotStep.keep _).of_eq hkeep
    · exact (SlotStep.flag hactive).of_eq hflagged
  | closeConnection target =>
    rcases slot_closeConnectionInternal cfg s target i with hkeep | ⟨hactive, rfl, hclosed⟩
    · exact (SlotStep.keep _).of_eq hkeep
    · exact (SlotStep.close _ hactive .closeConnection).of_eq hclosed
  | datagram sender d env => exact slotStep_datagram s i sender d env
  | maliciousDatagram sa =>
    rcases slot_closeConnectionInternal cfg s sa i with hkeep | ⟨hactive, rfl, hclosed⟩
    · exact (SlotStep.keep _).of_eq hkeep
    · exact (SlotStep.close _ hactive .maliciousDatagram).of_eq hclosed
  | requestConnections timeMS outcome => exact .of_systems rfl
  | update j env => exact slotStep_updateRemoteSystem h i j env
  | message j data env => exact slotStep_receiveMessage h i j data env

/-! ### The table stays in order -/

theorem inv_parseConnectionRequestPacket {s : RakPeer} (h : Inv cfg s.systems) (i : ℕ)
    {data : List UInt8} (env : MessageEnv) (hid : data.head? = some MessageID.connectionRequest) :
    Inv cfg (s.parseConnectionRequestPacket cfg i data env).systems := by
  rcases parseConnectionRequestPacket_cases cfg s i hid env with
    hkeep | ⟨-, hsystems⟩ | ⟨-, hsystems⟩
  · exact inv_of_systems h (congrArg RakPeer.systems hkeep)
  · exact hsystems ▸ inv_setConnectMode h i _
  · exact hsystems ▸ inv_setConnectMode h i _

theorem inv_ite {a b : RakPeer} {c : Prop} [Decidable c] (ha : c → Inv cfg a.systems)
    (hb : ¬ c → Inv cfg b.systems) : Inv cfg (if c then a else b).systems := by
  by_cases hc : c
  · rw [if_pos hc]
    exact ha hc
  · rw [if_neg hc]
    exact hb hc

theorem inv_processMessage {s : RakPeer} (h : Inv cfg s.systems) (i : ℕ) {id : UInt8}
    {data : List UInt8} (env : MessageEnv) (hid : data.head? = some id) :
    Inv cfg (s.processMessage cfg i id data env).systems := by
  unfold processMessage
  refine inv_ite (fun hrequest => ?_) fun _ => ?_
  · rw [hrequest] at hid
    refine inv_ite (fun _ => ?_) fun _ => ?_
    · exact inv_parseConnectionRequestPacket h i env hid
    · exact inv_of_systems h (systems_replyToConnectionRequest s i data env)
  refine inv_ite (fun _ => ?_) fun _ => ?_
  · exact inv_ite (fun _ => inv_newIncomingConnection h i data env) fun _ => h
  refine inv_ite (fun _ => ?_) fun _ => ?_
  · exact inv_modifyRemoteSystem h i rfl rfl
  refine inv_ite (fun _ => ?_) fun _ => ?_
  · exact inv_of_systems h (systems_connectedPing s i data env)
  refine inv_ite (fun _ => ?_) fun _ => ?_
  · exact inv_setConnectMode h i _
  refine inv_ite (fun _ => h) fun _ => ?_
  refine inv_ite (fun _ => ?_) fun _ => ?_
  · exact inv_ite (fun _ => inv_setConnectMode (s := s.addPacketToProducer _) h i _) fun _ => h
  refine inv_ite (fun _ => ?_) fun _ => ?_
  · exact inv_ite (fun _ => inv_of_systems (inv_acceptConnection h i data env)
      (systems_connectionRequestAccepted s i data env)) fun _ => h
  exact inv_ite (fun _ => h) fun _ => h

theorem inv_receiveMessage {s : RakPeer} (h : Inv cfg s.systems) (i : ℕ) (data : List UInt8)
    (env : MessageEnv) : Inv cfg (s.receiveMessage cfg i data env).systems := by
  cases data with
  | nil => exact h
  | cons id rest =>
    unfold receiveMessage
    dsimp only
    split
    · exact h
    · split
      · split
        · rename_i hrequest
          exact inv_parseConnectionRequestPacket h i env (congrArg some hrequest)
        · exact inv_closeConnectionInternal h _
      · exact inv_processMessage h i env rfl

theorem inv_openConnectionReply2 {s : RakPeer} (h : Inv cfg s.systems) (sender : Sender)
    (d : Datagram) (env : ReceiveEnv) :
    Inv cfg (s.openConnectionReply2 cfg env sender.systemAddress d).peer.systems := by
  rcases systems_openConnectionReply2 cfg s sender.systemAddress d env with
    hsame | ⟨-, ⟨j, -, hmarked⟩ | ⟨hunknown, guid, j, systems, hassign, hmarked⟩⟩
  · exact hsame ▸ h
  · exact hmarked ▸ inv_modifyRemoteSystem h j rfl rfl
  · rw [hmarked]
    refine inv_modifyRemoteSystem ?_ j rfl rfl
    have hassigned := h.assign sender.assigned (noActiveHas_of_not_found h sender.assigned hunknown)
      .unverifiedSender (replyMtu env d) guid env.timeMS
    rw [hassign] at hassigned
    exact hassigned

theorem inv_openConnectionRequest2 {s : RakPeer} (h : Inv cfg s.systems) (sender : Sender)
    (d : Datagram) (env : ReceiveEnv) :
    Inv cfg (s.openConnectionRequest2 cfg env sender.systemAddress d).peer.systems := by
  rcases systems_openConnectionRequest2 cfg s sender.systemAddress d env with
    hsame | ⟨hunknown, -, -, hassigned⟩
  · exact hsame ▸ h
  · rw [hassigned]
    exact h.assign sender.assigned (noActiveHas_of_not_found h sender.assigned hunknown) _ _ _ _

theorem inv_datagram {s : RakPeer} (h : Inv cfg s.systems) (sender : Sender) (d : Datagram)
    (env : ReceiveEnv) :
    Inv cfg (s.processOfflineNetworkPacket cfg env sender.systemAddress d).2.peer.systems := by
  unfold processOfflineNetworkPacket
  split
  · exact h
  split
  · dsimp only
    unfold processOfflineMessage
    split
    · exact inv_of_systems h (systems_unconnectedPing s env _ d)
    split
    · exact h
    split
    · exact h
    split
    · exact inv_of_systems h (systems_openConnectionReply1 s env _ d)
    split
    · exact inv_openConnectionReply2 h sender d env
    split
    · exact inv_of_systems h (systems_connectionFailureReply s _ d)
    split
    · exact inv_of_systems h (systems_openConnectionRequest1 s _ d)
    split
    · exact inv_openConnectionRequest2 h sender d env
    · exact h
  · exact h

theorem inv_step {s : RakPeer} (h : Inv cfg s.systems) (input : PeerInput) :
    Inv cfg (s.step cfg input).systems := by
  cases input with
  | connect c => exact inv_of_systems h (systems_sendConnectionRequest s c)
  | cancelConnectionAttempt target => exact h
  | notifyAndFlagForShutdown sa =>
    exact inv_flagForShutdown (inv_of_systems h (systems_sendImmediate s sa _)) sa
  | closeConnection target => exact inv_closeConnectionInternal h target
  | datagram sender d env => exact inv_datagram h sender d env
  | maliciousDatagram sa => exact inv_closeConnectionInternal h sa
  | requestConnections timeMS outcome => exact h
  | update i env =>
    show Inv cfg (s.updateRemoteSystem cfg i env).systems
    unfold updateRemoteSystem
    split
    · split
      · exact inv_closeConnectionInternal (inv_of_systems h (systems_notifyFailure s i)) _
      split
      · exact inv_of_systems h (systems_pingInternal s _ _)
      · exact h
    · exact h
  | message i data env => exact inv_receiveMessage h i data env

theorem inv_run (cfg : PeerConfig) (inputs : List PeerInput) :
    Inv cfg (inputs.foldl (step cfg) initial).systems :=
  Transition.run_invariant (fun _ (s : RakPeer) => Inv cfg s.systems)
    (RemoteSystems.initial_inv cfg) fun _ input _ _ h => inv_step h input

/-- What holds of every slot at the start, and of a slot after a step if it held before it, holds
of every slot in every run of good steps. -/
theorem run_slot {good : RakPeer → PeerInput → Prop} {inputs : List PeerInput} {i : ℕ}
    (P : Slot → Prop) (hgood : Transition.Along (step cfg) good initial inputs)
    (hinit : P (initial.slot i))
    (hstep : ∀ s input x, SlotStep cfg s i input x → good s input → P (s.slot i) → P x) :
    P ((inputs.foldl (step cfg) initial).slot i) := by
  have hrun := Transition.run_invariant (fun _ (s : RakPeer) => Inv cfg s.systems ∧ P (s.slot i))
    ⟨RemoteSystems.initial_inv cfg, hinit⟩ fun pre input post heq h =>
      ⟨inv_step h.1 input, hstep _ input _ (slotStep h.1 i input) (hgood pre input post heq) h.2⟩
  exact hrun.2

end RakPeer

end SLikeNet
