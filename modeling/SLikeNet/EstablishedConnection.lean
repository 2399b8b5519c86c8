import SLikeNet.NegotiatedMtu

/-! An established connection ends by being closed, left, found malicious or found dead. The one
other way out of the connected mode is the reply to a request that is still pending although the
other system has connected in the meantime. -/

namespace SLikeNet

open RemoteSystems (Inv)

def ConnectMode.Disconnects (m : ConnectMode) : Prop :=
  m = .disconnectAsap ∨ m = .disconnectAsapSilently ∨ m = .disconnectOnNoAck

instance (m : ConnectMode) : Decidable m.Disconnects :=
  inferInstanceAs (Decidable (m = .disconnectAsap ∨ m = .disconnectAsapSilently ∨
    m = .disconnectOnNoAck))

def Slot.Established (x : Slot) : Prop := x.isActive = true ∧ x.connectMode = .connected

instance (x : Slot) : Decidable x.Established :=
  inferInstanceAs (Decidable (x.isActive = true ∧ x.connectMode = .connected))

namespace RakPeer

variable {cfg : PeerConfig}

/-- What may end the connection of a slot. -/
inductive EndsConnection (s : RakPeer) (i : ℕ) : PeerInput → Prop
  | notifyAndFlagForShutdown : EndsConnection s i (.notifyAndFlagForShutdown (s.addressOf i))
  | closeConnection : EndsConnection s i (.closeConnection (s.addressOf i))
  | maliciousDatagram : EndsConnection s i (.maliciousDatagram (s.addressOf i))
  | deadConnection (env : UpdateEnv) (hdead : env.isDeadConnection = true) :
      EndsConnection s i (.update i env)
  | disconnectionNotification (data : List UInt8) (env : MessageEnv)
      (hid : data.head? = some MessageID.disconnectionNotification) :
      EndsConnection s i (.message i data env)

/-- A slot that was established still is, or it was ended and is closed or disconnecting. -/
def StaysEstablished (s : RakPeer) (i : ℕ) (input : PeerInput) (x : Slot) : Prop :=
  x.Established ∨ EndsConnection s i input ∧ (x.isActive = false ∨ x.connectMode.Disconnects)

/-- No step takes an established connection out of the connected mode in another way. -/
def KeepsEstablished (cfg : PeerConfig) (s : RakPeer) (input : PeerInput) : Prop :=
  ∀ i, (s.slot i).Established → StaysEstablished s i input ((s.step cfg input).slot i)

/-- A reply to a pending request comes from a system that is connected already: both systems
connected to each other. -/
inductive CrossReply (s : RakPeer) : PeerInput → Prop
  | reply (sender : Sender) (d : Datagram) (env : ReceiveEnv) (i : ℕ)
      (htaken : TakenOffline env d) (hid : d.id = MessageID.openConnectionReply2)
      (hrequested : (s.requested sender.systemAddress).isSome = true)
      (haddress : s.addressOf i = sender.systemAddress) (hestablished : (s.slot i).Established) :
      CrossReply s (.datagram sender d env)

theorem failed_of_connected {r : RemoteSystemStruct} {env : UpdateEnv}
    (hmode : r.connectMode = .connected) (hfailed : failed env r = true) :
    env.isDeadConnection = true := by
  simpa [failed, hmode] using hfailed

theorem Closes.endsConnection {s : RakPeer} {i : ℕ} {input : PeerInput} (h : Closes s i input)
    (hmode : (s.slot i).connectMode = .connected) : EndsConnection s i input := by
  cases h with
  | closeConnection => exact .closeConnection
  | maliciousDatagram => exact .maliciousDatagram
  | failed env hfailed => exact .deadConnection env (failed_of_connected hmode hfailed)
  | notARequest data env hunverified => exact ConnectMode.noConfusion (hmode.symm.trans hunverified)

theorem not_readsPassword_connected : ¬ ReadsPassword .connected := by
  rintro (h | h) <;> exact ConnectMode.noConfusion h

theorem SlotStep.staysEstablished {s : RakPeer} {i : ℕ} {input : PeerInput} {x : Slot}
    (hstep : SlotStep cfg s i input x) (hgood : ¬ CrossReply s input)
    (h : (s.slot i).Established) : StaysEstablished s i input x := by
  obtain ⟨hactive, hmode⟩ := h
  cases hstep with
  | keep => exact Or.inl ⟨hactive, hmode⟩
  | close _ _ hcloses => exact Or.inr ⟨hcloses.endsConnection hmode, Or.inl rfl⟩
  | flag => exact Or.inr ⟨.notifyAndFlagForShutdown, Or.inr (Or.inl rfl)⟩
  | reserve _ _ _ hinactive => exact absurd hactive hinactive
  | reserveAndRequest _ _ _ hinactive => exact absurd hactive hinactive
  | request sender d env _ haddress htaken hid hrequested =>
    exact absurd (.reply sender d env i htaken hid hrequested haddress ⟨hactive, hmode⟩) hgood
  | password _ _ _ hreads => exact absurd (hmode ▸ hreads) not_readsPassword_connected
  | wrongPassword _ _ _ hreads => exact absurd (hmode ▸ hreads) not_readsPassword_connected
  | complete _ _ _ hhandling => exact ConnectMode.noConfusion (hmode.symm.trans hhandling)
  | accept => exact Or.inl ⟨hactive, rfl⟩
  | pong => exact Or.inl ⟨hactive, hmode⟩
  | leave data env _ _ hid =>
    exact Or.inr ⟨.disconnectionNotification data env hid, Or.inr (Or.inr (Or.inr rfl))⟩
  | rejected _ _ _ hrequested => exact ConnectMode.noConfusion (hmode.symm.trans hrequested)

theorem established_kept (cfg : PeerConfig) (inputs : List PeerInput)
    (hgood : Transition.Along (step cfg) (fun s input => ¬ CrossReply s input) initial inputs) :
    Transition.Along (step cfg) (KeepsEstablished cfg) initial inputs := by
  intro pre input post heq i hestablished
  exact (slotStep (inv_run cfg pre) i input).staysEstablished (hgood pre input post heq) hestablished

/-! ### Runs -/

def plainMessage : MessageEnv := ⟨1000, nothingUninitialised⟩

def connectionRequestData (guid : RakNetGUID) (password : List UInt8) : List UInt8 :=
  [MessageID.connectionRequest] ++ guid.bytes ++ toBytes 8 900 ++ [0] ++ password

def newIncomingConnectionData : List UInt8 :=
  [MessageID.newIncomingConnection] ++ SystemAddress.bytes ⟨2, 2⟩ ++
    (List.replicate maximumNumberOfInternalIds (SystemAddress.bytes .unassigned)).flatten ++
    toBytes 8 950 ++ toBytes 8 960

/-- The other system connects to us, from its request for a slot on. -/
def otherConnects : List PeerInput :=
  [askForSlot 1492, .message 0 (connectionRequestData ⟨5⟩ [1]) plainMessage,
    .message 0 newIncomingConnectionData plainMessage]

def connectToOther : PeerInput :=
  .connect
    { systemAddress := otherAddress
      passwordData := []
      sendConnectionAttemptCount := 12
      timeBetweenSendConnectionAttemptsMS := 500
      timeMS := 900 }

def openConnectionReply2Data (mtu : ℕ) (guid : RakNetGUID) : List UInt8 :=
  offlineHeader MessageID.openConnectionReply2 ++ guid.bytes ++ SystemAddress.bytes ⟨2, 2⟩ ++
    toBytes 2 mtu ++ [0]

def openConnectionReply2Datagram (mtu : ℕ) (guid : RakNetGUID) : Datagram where
  data := openConnectionReply2Data mtu guid
  beyond _ := 0
  pos := Nat.succ_pos _

/-- The reply of the other system to a request of ours. -/
def replyFromOther : PeerInput :=
  .datagram otherSystem (openConnectionReply2Datagram 1492 ⟨5⟩) plainReceive

theorem otherConnects_keeps_established :
    Transition.Along (step oneIncoming) (KeepsEstablished oneIncoming) initial
      (connectToOther :: otherConnects) := by
  refine established_kept oneIncoming _ (Transition.along_cons ?_ (Transition.along_cons ?_
    (Transition.along_cons ?_ (Transition.along_cons ?_ Transition.along_nil))))
  · exact fun h => nomatch h
  · intro h
    cases h with
    | reply _ _ _ _ _ hid => exact absurd hid (by decide)
  · exact fun h => nomatch h
  · exact fun h => nomatch h

/-- Both systems connect to each other, and the reply to our own request comes last. -/
theorem late_reply_downgrades :
    ¬ ∀ (cfg : PeerConfig) (inputs : List PeerInput),
      Transition.Along (step cfg) (KeepsEstablished cfg) initial inputs := by
  intro hclaim
  have hkeeps := hclaim oneIncoming (connectToOther :: otherConnects ++ [replyFromOther])
    (connectToOther :: otherConnects) replyFromOther [] rfl 0 (by decide)
  rcases hkeeps with hsame | ⟨hends, -⟩
  · exact absurd hsame (by decide)
  · exact nomatch hends

end RakPeer

end SLikeNet
