import SLikeNet.UpdateCycle
import SLikeNet.RemoteSystemLookup

/-! What one input can do to one slot of the connection table. Every property of the connect
modes below is read off this list of cases, with the invariant of the table. -/

namespace SLikeNet

open RemoteSystems (Inv)

/-- The part of a slot that the handshake and the pings work on. -/
structure Slot where
  isActive : Bool
  systemAddress : SystemAddress
  mtuSize : ℕ
  connectMode : ConnectMode
  weInitiatedTheConnection : Bool
  pingAndClockDifferential : Fin pingTimesArraySize → PingAndClockDifferential
  pingAndClockDifferentialWriteIndex : Fin pingTimesArraySize

def RemoteSystemStruct.slot (r : RemoteSystemStruct) : Slot where
  isActive := r.isActive
  systemAddress := r.systemAddress
  mtuSize := r.mtuSize
  connectMode := r.connectMode
  weInitiatedTheConnection := r.weInitiatedTheConnection
  pingAndClockDifferential := r.pingAndClockDifferential
  pingAndClockDifferentialWriteIndex := r.pingAndClockDifferentialWriteIndex

namespace Slot

/-- The MTU size that a slot takes for the one it is given. -/
def mtu (given : ℕ) : ℕ := if given > defaultMtuSize then given else defaultMtuSize

/-- A slot as it is assigned. -/
def assigned (systemAddress : SystemAddress) (given : ℕ) : Slot where
  isActive := true
  systemAddress := systemAddress
  mtuSize := mtu given
  connectMode := .unverifiedSender
  weInitiatedTheConnection := false
  pingAndClockDifferential _ := ⟨65535, 0⟩
  pingAndClockDifferentialWriteIndex := ⟨0, Nat.succ_pos _⟩

def requested (x : Slot) : Slot :=
  { x with weInitiatedTheConnection := true, connectMode := .requestedConnection }

def recordPong (x : Slot) (times : UInt64 × UInt64) (time : UInt64) : Slot :=
  { x with
    pingAndClockDifferential :=
      Function.update x.pingAndClockDifferential x.pingAndClockDifferentialWriteIndex
        (RakPeer.pingOf times.1 times.2 time)
    pingAndClockDifferentialWriteIndex :=
      RakPeer.nextWriteIndex x.pingAndClockDifferentialWriteIndex }

end Slot

namespace RakPeer

variable {cfg : PeerConfig}

def slot (s : RakPeer) (i : ℕ) : Slot := (s.remoteSystem i).slot

abbrev Active (s : RakPeer) (i : ℕ) : Prop := s.systems.Active i

def addressOf (s : RakPeer) (i : ℕ) : SystemAddress := s.systems.addressOf i

/-! ### Operations that leave the table alone -/

@[simp] theorem systems_addPacketToProducer (s : RakPeer) (packet : UserPacket) :
    (s.addPacketToProducer packet).systems = s.systems := rfl

@[simp] theorem systems_removeRequest (s : RakPeer) (sa : SystemAddress) :
    (s.removeRequest sa).systems = s.systems := rfl

@[simp] theorem systems_sendImmediate (s : RakPeer) (sa : SystemAddress) (data : List UInt8) :
    (s.sendImmediate cfg sa data).systems = s.systems := by
  unfold sendImmediate
  split
  · rfl
  · split <;> rfl

@[simp] theorem systems_pingInternal (s : RakPeer) (sa : SystemAddress) (time : UInt64) :
    (s.pingInternal cfg sa time).systems = s.systems :=
  systems_sendImmediate s sa _

@[simp] theorem systems_notifyFailure (s : RakPeer) (i : ℕ) :
    (s.notifyFailure i).systems = s.systems := by
  unfold notifyFailure
  split <;> rfl

@[simp] theorem systems_onConnectionRequest (s : RakPeer) (i : ℕ) (t time : UInt64) :
    (s.onConnectionRequest cfg i t time).systems = s.systems :=
  systems_sendImmediate s _ _

theorem slot_congr {s t : RakPeer} (h : s.systems = t.systems) (i : ℕ) : s.slot i = t.slot i := by
  unfold slot remoteSystem
  rw [h]

/-! ### Operations on one slot -/

theorem slot_modifyRemoteSystem (s : RakPeer) (i j : ℕ)
    (f : RemoteSystemStruct → RemoteSystemStruct) :
    (s.modifyRemoteSystem i f).slot j = if j = i then (f (s.remoteSystem i)).slot else s.slot j := by
  unfold slot remoteSystem modifyRemoteSystem
  rw [RemoteSystems.remoteSystemList_set]
  split <;> rfl

theorem slot_setConnectMode (s : RakPeer) (i j : ℕ) (m : ConnectMode) :
    (s.setConnectMode i m).slot j =
      if j = i then { s.slot i with connectMode := m } else s.slot j :=
  slot_modifyRemoteSystem s i j _

theorem inv_modifyRemoteSystem {s : RakPeer} (h : Inv cfg s.systems) (i : ℕ)
    {f : RemoteSystemStruct → RemoteSystemStruct}
    (haddress : (f (s.remoteSystem i)).systemAddress = (s.remoteSystem i).systemAddress)
    (hactive : (f (s.remoteSystem i)).isActive = (s.remoteSystem i).isActive) :
    Inv cfg (s.modifyRemoteSystem i f).systems := by
  refine h.congr (RemoteSystems.addressOf_set s.systems i haddress) (fun j => ?_) rfl rfl
  refine RemoteSystems.active_set.trans ?_
  rw [hactive]
  rcases eq_or_ne j i with rfl | hj
  · simp only [true_and, ne_eq, not_true_eq_false, false_and, or_false]
    rfl
  · simp only [hj, false_and, ne_eq, not_false_eq_true, true_and, false_or]

theorem inv_setConnectMode {s : RakPeer} (h : Inv cfg s.systems) (i : ℕ) (m : ConnectMode) :
    Inv cfg (s.setConnectMode i m).systems :=
  inv_modifyRemoteSystem h i rfl rfl

theorem slot_setFirstExternalID (s : RakPeer) (sa : SystemAddress) (j : ℕ) :
    (s.setFirstExternalID sa).slot j = s.slot j := by
  unfold setFirstExternalID
  split <;> rfl

theorem inv_setFirstExternalID {s : RakPeer} (h : Inv cfg s.systems) (sa : SystemAddress) :
    Inv cfg (s.setFirstExternalID sa).systems := by
  unfold setFirstExternalID
  split
  · exact h.congr rfl (fun _ => Iff.rfl) rfl rfl
  · exact h

theorem slot_of_systems {s t : RakPeer} {j : ℕ}
    (h : t.systems.remoteSystemList j = s.systems.remoteSystemList j) : t.slot j = s.slot j :=
  congrArg RemoteSystemStruct.slot h

variable (cfg) in
theorem slot_closeConnectionInternal (s : RakPeer) (target : SystemAddress) (j : ℕ) :
    (s.closeConnectionInternal cfg target).slot j = s.slot j ∨
      s.Active j ∧ s.addressOf j = target ∧
        (s.closeConnectionInternal cfg target).slot j = { s.slot j with isActive := false } := by
  unfold closeConnectionInternal RemoteSystems.closeConnectionImmediately
  split
  · exact Or.inl rfl
  · split
    · exact Or.inl rfl
    · rename_i k hfind
      split
      · rename_i hk
        have hlist := (RemoteSystems.lookup_removeFromActiveSystemList s.systems target).2
        rcases eq_or_ne j k with rfl | hj
        · refine Or.inr ⟨hk, (IndexChains.lookup_some hfind).2, ?_⟩
          refine (congrArg RemoteSystemStruct.slot
            (RemoteSystems.remoteSystemList_set _ j j _)).trans ?_
          rw [if_pos rfl, hlist]
          rfl
        · refine Or.inl (slot_of_systems ?_)
          refine (RemoteSystems.remoteSystemList_set _ k j _).trans ?_
          rw [if_neg hj, hlist]
      · exact Or.inl rfl

theorem inv_closeConnectionInternal {s : RakPeer} (h : Inv cfg s.systems) (target : SystemAddress) :
    Inv cfg (s.closeConnectionInternal cfg target).systems :=
  h.close target

theorem found_spec {s : RakPeer} {sa : SystemAddress} {i : ℕ}
    (h : s.systems.getRemoteSystemFromSystemAddress cfg sa = some i) :
    s.Active i ∧ s.addressOf i = sa := by
  unfold RemoteSystems.getRemoteSystemFromSystemAddress at h
  split at h
  · exact absurd h (Option.some_ne_none i).symm
  · split at h
    · rename_i k hfind
      split at h
      · rename_i hk
        obtain rfl := Option.some.inj h
        exact ⟨hk, (IndexChains.lookup_some hfind).2⟩
      · exact absurd h (Option.some_ne_none i).symm
    · exact absurd h (Option.some_ne_none i).symm

theorem noActiveHas_of_not_found {s : RakPeer} (h : Inv cfg s.systems) {sa : SystemAddress}
    (hsa : sa ≠ .unassigned)
    (hnone : s.systems.getRemoteSystemFromSystemAddress cfg sa = none) :
    s.systems.NoActiveHas cfg sa := by
  intro i _ hi haddress
  rw [RemoteSystems.getRemoteSystemFromSystemAddress, if_neg hsa, ← haddress, h.found hi] at hnone
  exact absurd (if_pos hi) (hnone ▸ (Option.some_ne_none i).symm)

variable (cfg) in
theorem slot_flagForShutdown (s : RakPeer) (sa : SystemAddress) (j : ℕ) :
    (s.flagForShutdown cfg sa).slot j = s.slot j ∨
      s.Active j ∧ s.addressOf j = sa ∧
        (s.flagForShutdown cfg sa).slot j = { s.slot j with connectMode := .disconnectAsap } := by
  unfold flagForShutdown
  cases hfind : s.systems.getRemoteSystemFromSystemAddress cfg sa with
  | none => exact Or.inl rfl
  | some k =>
    have hslot := slot_setConnectMode s k j .disconnectAsap
    rcases eq_or_ne j k with rfl | hj
    · rw [if_pos rfl] at hslot
      exact Or.inr ⟨(found_spec hfind).1, (found_spec hfind).2, hslot⟩
    · rw [if_neg hj] at hslot
      exact Or.inl hslot

theorem inv_flagForShutdown {s : RakPeer} (h : Inv cfg s.systems) (sa : SystemAddress) :
    Inv cfg (s.flagForShutdown cfg sa).systems := by
  unfold flagForShutdown
  split
  · exact h
  · exact inv_setConnectMode h _ _

theorem assign_cases {s : RakPeer} (sa : SystemAddress) (mtu : ℕ) (guid : RakNetGUID) (time : ℕ)
    {outcome : RemoteSystems.Assignment} {systems : RemoteSystems}
    (h : s.systems.assignSystemAddressToRemoteSystemList cfg sa .unverifiedSender mtu guid time =
      (outcome, systems)) :
    systems = s.systems ∧ (∀ k, outcome ≠ .assigned k) ∨
      ∃ k, outcome = .assigned k ∧ k < cfg.maximumNumberOfPeers ∧ ¬ s.Active k ∧
        s.systems.thisIPConnectedRecently cfg sa time = false ∧
        ∀ j, ({ s with systems := systems } : RakPeer).slot j =
          if j = k then Slot.assigned sa mtu else s.slot j := by
  unfold RemoteSystems.assignSystemAddressToRemoteSystemList at h
  split at h
  · obtain ⟨rfl, rfl⟩ := Prod.mk.inj h
    exact Or.inl ⟨rfl, fun k => RemoteSystems.Assignment.noConfusion⟩
  · rename_i hrecently
    split at h
    · obtain ⟨rfl, rfl⟩ := Prod.mk.inj h
      exact Or.inl ⟨rfl, fun k => RemoteSystems.Assignment.noConfusion⟩
    · rename_i k hfind
      obtain ⟨rfl, rfl⟩ := Prod.mk.inj h
      have hinactive : ¬ s.Active k := by
        have := List.find?_some hfind
        simpa [Active, RemoteSystems.Active] using this
      have hk : k < cfg.maximumNumberOfPeers := List.mem_range.mp (List.mem_of_find?_eq_some hfind)
      refine Or.inr ⟨k, rfl, hk, hinactive, eq_false_of_ne_true hrecently, fun j => ?_⟩
      split
      · rename_i hj
        refine (congrArg RemoteSystemStruct.slot
          (RemoteSystems.remoteSystemList_set _ k j _)).trans ?_
        rw [if_pos hj, RemoteSystems.remoteSystemList_reference, Function.update_self]
        rfl
      · rename_i hj
        refine slot_of_systems ((RemoteSystems.remoteSystemList_set _ k j _).trans ?_)
        rw [if_neg hj, RemoteSystems.remoteSystemList_reference, Function.update_of_ne hj]

/-! ### Messages -/

/-- The message is an `ID_CONNECTION_REQUEST` that carries this password: it follows the
identifier, the GUID, the time and the security flag. -/
def CarriesPassword (data password : List UInt8) : Prop :=
  data.head? = some MessageID.connectionRequest ∧ 17 ≤ data.length ∧ data.drop 18 = password

theorem slot_modify_onConnectedPong (s : RakPeer) (i j : ℕ) (times : UInt64 × UInt64)
    (time : UInt64) :
    (s.modifyRemoteSystem i (onConnectedPong times.1 times.2 time)).slot j =
      if j = i then (s.slot i).recordPong times time else s.slot j :=
  slot_modifyRemoteSystem s i j _

theorem slot_newIncomingConnection (s : RakPeer) (i j : ℕ) (data : List UInt8) (env : MessageEnv) :
    (s.newIncomingConnection cfg i data env).slot j =
      if j = i then
        { (s.slot i).recordPong (newIncomingTimes data env.uninitialised) env.time with
          connectMode := .connected }
      else s.slot j := by
  unfold newIncomingConnection
  refine (slot_congr (systems_addPacketToProducer _ _) j).trans ?_
  rw [slot_setFirstExternalID, slot_modify_onConnectedPong, slot_congr (systems_pingInternal _ _ _) i,
    slot_congr (systems_pingInternal _ _ _) j, slot_setConnectMode, slot_setConnectMode,
    if_pos rfl]
  split <;> rfl

theorem inv_of_systems {s t : RakPeer} (h : Inv cfg s.systems) (heq : t.systems = s.systems) :
    Inv cfg t.systems :=
  heq ▸ h

theorem inv_newIncomingConnection {s : RakPeer} (h : Inv cfg s.systems) (i : ℕ)
    (data : List UInt8) (env : MessageEnv) :
    Inv cfg (s.newIncomingConnection cfg i data env).systems := by
  unfold newIncomingConnection
  refine inv_setFirstExternalID (inv_modifyRemoteSystem ?_ i rfl rfl) _
  exact inv_of_systems (inv_setConnectMode h i _) (systems_pingInternal _ _ _)

theorem systems_connectionRequestAccepted (s : RakPeer) (i : ℕ) (data : List UInt8)
    (env : MessageEnv) :
    (s.connectionRequestAccepted cfg i data env).systems = (s.acceptConnection i data env).systems := by
  unfold connectionRequestAccepted
  dsimp only
  split
  · rw [systems_sendImmediate, systems_addPacketToProducer]
  · rw [systems_pingInternal, systems_sendImmediate, systems_addPacketToProducer]

theorem slot_acceptConnection (s : RakPeer) (i j : ℕ) (data : List UInt8) (env : MessageEnv) :
    (s.acceptConnection i data env).slot j =
      if j = i then
        { (s.slot i).recordPong (acceptedTimes data env.uninitialised) env.time with
          connectMode := .connected }
      else s.slot j := by
  unfold acceptConnection
  rw [slot_setFirstExternalID, slot_setConnectMode, slot_modify_onConnectedPong,
    slot_modify_onConnectedPong, if_pos rfl]
  split <;> rfl

theorem inv_acceptConnection {s : RakPeer} (h : Inv cfg s.systems) (i : ℕ) (data : List UInt8)
    (env : MessageEnv) : Inv cfg (s.acceptConnection i data env).systems :=
  inv_setFirstExternalID (inv_setConnectMode (inv_modifyRemoteSystem h i rfl rfl) i _) _

theorem read_request (data : List UInt8) :
    (readUInt64 (readGuid (data.drop 1)).2).1.isSome = decide (17 ≤ data.length) ∧
      (17 ≤ data.length →
        (readUInt8 (readUInt64 (readGuid (data.drop 1)).2).2).2 = data.drop 18) := by
  have hlength : (data.drop 1).length = data.length - 1 := List.length_drop
  have hlength' : (data.drop 9).length = data.length - 9 := List.length_drop
  rw [readGuid_snd]
  rcases Nat.lt_or_ge data.length 9 with hshort | hguid
  · rw [@readUInt64_of_lt (data.drop 1) (by omega),
      @readUInt64_of_lt (data.drop 1) (by omega)]
    exact ⟨(decide_eq_false (by omega)).symm, fun hlong => absurd hlong (by omega)⟩
  · rw [@readUInt64_of_le (data.drop 1) (by omega), List.drop_drop]
    rcases Nat.lt_or_ge data.length 17 with hshort | hlong
    · rw [@readUInt64_of_lt (data.drop 9) (by omega)]
      exact ⟨(decide_eq_false (by omega)).symm, fun hlong => absurd hlong (by omega)⟩
    · rw [@readUInt64_of_le (data.drop 9) (by omega), List.drop_drop]
      refine ⟨(decide_eq_true hlong).symm, fun _ => ?_⟩
      show (readBytes 1 (data.drop 17)).2 = _
      rcases Nat.lt_or_ge data.length 18 with hend | hflag
      · rw [readBytes_of_lt (by rw [List.length_drop]; omega),
          List.drop_eq_nil_of_le (show data.length ≤ 17 by omega),
          List.drop_eq_nil_of_le (show data.length ≤ 18 by omega)]
      · rw [readBytes_of_le (by rw [List.length_drop]; omega), List.drop_drop]

variable (cfg) in
/-- A request is ignored where it is too short, and otherwise the password decides. -/
theorem parseConnectionRequestPacket_cases (s : RakPeer) (i : ℕ) {data : List UInt8}
    (hid : data.head? = some MessageID.connectionRequest) (env : MessageEnv) :
    s.parseConnectionRequestPacket cfg i data env = s ∨
      CarriesPassword data cfg.incomingPassword ∧
        (s.parseConnectionRequestPacket cfg i data env).systems =
          (s.setConnectMode i .handlingConnectionRequest).systems ∨
      ¬ CarriesPassword data cfg.incomingPassword ∧
        (s.parseConnectionRequestPacket cfg i data env).systems =
          (s.setConnectMode i .disconnectAsapSilently).systems := by
  obtain ⟨hsome, hrest⟩ := read_request data
  unfold parseConnectionRequestPacket
  dsimp only
  cases htime : (readUInt64 (readGuid (data.drop 1)).2).1 with
  | none => exact Or.inl rfl
  | some timestamp =>
    rw [htime] at hsome
    have hlong : 17 ≤ data.length := of_decide_eq_true hsome.symm
    dsimp only
    rw [hrest hlong]
    split
    · rename_i hpassword
      exact Or.inr (Or.inl ⟨⟨hid, hlong, hpassword⟩, systems_onConnectionRequest _ i _ _⟩)
    · rename_i hpassword
      refine Or.inr (Or.inr ⟨fun hcarries => hpassword hcarries.2.2, ?_⟩)
      unfold setConnectMode modifyRemoteSystem remoteSystem
      rw [systems_sendImmediate]

theorem systems_replyToConnectionRequest (s : RakPeer) (i : ℕ) (data : List UInt8)
    (env : MessageEnv) : (s.replyToConnectionRequest cfg i data env).systems = s.systems :=
  systems_onConnectionRequest s i _ _

theorem systems_connectedPing (s : RakPeer) (i : ℕ) (data : List UInt8) (env : MessageEnv) :
    (s.connectedPing cfg i data env).systems = s.systems :=
  systems_sendImmediate s _ _

theorem slot_connectedPong (s : RakPeer) (i j : ℕ) (data : List UInt8) (env : MessageEnv) :
    (s.connectedPong i data env).slot j =
      if j = i then (s.slot i).recordPong (pongTimes data env.uninitialised) env.time
      else s.slot j :=
  slot_modify_onConnectedPong s i j _ _

/-! ### Offline messages -/

theorem systems_unconnectedPing (s : RakPeer) (env : ReceiveEnv) (sa : SystemAddress)
    (d : Datagram) : (s.unconnectedPing cfg env sa d).peer.systems = s.systems := by
  unfold unconnectedPing
  split <;> rfl

theorem systems_openConnectionReply1 (s : RakPeer) (env : ReceiveEnv) (sa : SystemAddress)
    (d : Datagram) : (s.openConnectionReply1 cfg env sa d).peer.systems = s.systems := by
  unfold openConnectionReply1
  dsimp only
  split <;> rfl

theorem systems_connectionFailureReply (s : RakPeer) (sa : SystemAddress) (d : Datagram) :
    (s.connectionFailureReply sa d).peer.systems = s.systems := by
  unfold connectionFailureReply
  dsimp only
  split <;> rfl

theorem systems_openConnectionRequest1 (s : RakPeer) (sa : SystemAddress) (d : Datagram) :
    (s.openConnectionRequest1 cfg sa d).peer.systems = s.systems := by
  unfold openConnectionRequest1
  split <;> rfl

/-- The MTU size of an `ID_OPEN_CONNECTION_REQUEST_2`. -/
def requestMtu (env : ReceiveEnv) (d : Datagram) : ℕ :=
  ((readUInt16 (readSystemAddress env.uninitialised (d.data.drop (1 + 16))).2.2).1.getD
    env.uninitialised.mtu).toNat

/-- The MTU size of an `ID_OPEN_CONNECTION_REPLY_2`. -/
def replyMtu (env : ReceiveEnv) (d : Datagram) : ℕ :=
  ((readUInt16 (readSystemAddress env.uninitialised
    (readGuid (d.data.drop (1 + 16))).2).2.2).1.getD env.uninitialised.mtu).toNat

end RakPeer

end SLikeNet
