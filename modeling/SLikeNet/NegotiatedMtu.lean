import SLikeNet.SlotTransitions

/-! The MTU size of a connection. It is never below `defaultMtuSize`; above `maximumMtuSize` it
comes where a datagram that is given a slot says so. -/

namespace SLikeNet

open RemoteSystems (Inv)

/-- The MTU size of the slot, if it is active, is between those that a connection attempt tries. -/
def Slot.MtuWithinLimits (x : Slot) : Prop :=
  x.isActive = true → defaultMtuSize ≤ x.mtuSize ∧ x.mtuSize ≤ maximumMtuSize

instance (x : Slot) : Decidable x.MtuWithinLimits :=
  inferInstanceAs (Decidable (x.isActive = true →
    defaultMtuSize ≤ x.mtuSize ∧ x.mtuSize ≤ maximumMtuSize))

namespace RakPeer

variable {cfg : PeerConfig}

/-- The datagram is given a slot, and its MTU size is above the limit. -/
inductive Oversized (cfg : PeerConfig) (s : RakPeer) : PeerInput → Prop
  | request (sender : Sender) (d : Datagram) (env : ReceiveEnv) (htaken : TakenOffline env d)
      (hid : d.id = MessageID.openConnectionRequest2)
      (hguid : s.systems.getRemoteSystemFromGUID cfg (requestGuid env d) = none)
      (hallow : s.allowIncomingConnections cfg = true)
      (hassignable : Assignable cfg s sender.systemAddress env)
      (hmtu : requestMtu env d > maximumMtuSize) : Oversized cfg s (.datagram sender d env)
  | reply (sender : Sender) (d : Datagram) (env : ReceiveEnv) (htaken : TakenOffline env d)
      (hid : d.id = MessageID.openConnectionReply2)
      (hrequested : (s.requested sender.systemAddress).isSome = true)
      (hassignable : Assignable cfg s sender.systemAddress env)
      (hmtu : replyMtu env d > maximumMtuSize) : Oversized cfg s (.datagram sender d env)

theorem assigned_within (sa : SystemAddress) {given : ℕ} (h : given ≤ maximumMtuSize) :
    (Slot.assigned sa given).MtuWithinLimits := by
  have hlimits : defaultMtuSize ≤ maximumMtuSize := by decide
  intro _
  show defaultMtuSize ≤ Slot.mtu given ∧ Slot.mtu given ≤ maximumMtuSize
  unfold Slot.mtu
  split
  · rename_i habove
    exact ⟨Nat.le_of_lt habove, h⟩
  · exact ⟨Nat.le_refl _, hlimits⟩

theorem requested_within {x : Slot} (h : x.MtuWithinLimits) : x.requested.MtuWithinLimits := h

theorem SlotStep.mtuWithinLimits {s : RakPeer} {i : ℕ} {input : PeerInput} {x : Slot}
    (hstep : SlotStep cfg s i input x) (hgood : ¬ Oversized cfg s input)
    (h : (s.slot i).MtuWithinLimits) : x.MtuWithinLimits := by
  cases hstep with
  | keep => exact h
  | close => exact fun hactive => absurd hactive Bool.false_ne_true
  | reserve sender d env _ htaken hid hguid hallow hassignable =>
    refine assigned_within _ (Nat.not_lt.mp fun hmtu => hgood ?_)
    exact .request sender d env htaken hid hguid hallow hassignable hmtu
  | reserveAndRequest sender d env _ htaken hid hrequested hassignable =>
    refine requested_within (assigned_within _ (Nat.not_lt.mp fun hmtu => hgood ?_))
    exact .reply sender d env htaken hid hrequested hassignable hmtu
  | flag => exact h
  | request => exact h
  | password => exact h
  | wrongPassword => exact h
  | complete => exact h
  | accept => exact h
  | pong => exact h
  | leave => exact h
  | rejected => exact h

theorem mtu_within_limits (cfg : PeerConfig) (inputs : List PeerInput)
    (hgood : Transition.Along (step cfg) (fun s input => ¬ Oversized cfg s input) initial inputs)
    (i : ℕ) : ((inputs.foldl (step cfg) initial).slot i).MtuWithinLimits := by
  refine run_slot Slot.MtuWithinLimits hgood ?_ ?_
  · exact fun hactive => absurd hactive Bool.false_ne_true
  · exact fun s input x hstep hsize h => hstep.mtuWithinLimits hsize h

/-! ### Runs -/

/-- A peer that takes one connection. -/
def oneIncoming : PeerConfig where
  maximumNumberOfPeers := 1
  maximumIncomingConnections := 1
  incomingPassword := [1]
  limitConnectionFrequencyFromTheSameIP := false
  allowConnectionResponseIPMigration := false
  myGuid := ⟨7⟩
  ipList := []
  toInteger _ := 0

def nothingUninitialised : Uninitialised := ⟨4, 0, 0, 0, 1492, 0, 0, 0⟩

def plainReceive : ReceiveEnv where
  timeMS := 1000
  time := 1000
  isBanned := false
  offlinePingResponse := []
  uninitialised := nothingUninitialised

def otherAddress : SystemAddress := ⟨1, 1⟩

theorem otherAddress_assigned : otherAddress ≠ .unassigned := by decide

def otherSystem : Sender := ⟨otherAddress, otherAddress_assigned⟩

def openConnectionRequest2Data (mtu : ℕ) (guid : RakNetGUID) : List UInt8 :=
  offlineHeader MessageID.openConnectionRequest2 ++ SystemAddress.bytes ⟨2, 2⟩ ++ toBytes 2 mtu ++
    guid.bytes

def openConnectionRequest2Datagram (mtu : ℕ) (guid : RakNetGUID) : Datagram where
  data := openConnectionRequest2Data mtu guid
  beyond _ := 0
  pos := Nat.succ_pos _

def askForSlot (mtu : ℕ) : PeerInput :=
  .datagram otherSystem (openConnectionRequest2Datagram mtu ⟨5⟩) plainReceive

theorem fullSize_within_limits :
    (([askForSlot 1492].foldl (step oneIncoming) initial).slot 0).MtuWithinLimits := by
  refine mtu_within_limits oneIncoming [askForSlot 1492] ?_ 0
  refine Transition.along_cons (fun hoversized => ?_) Transition.along_nil
  cases hoversized with
  | request _ _ _ _ _ _ _ _ hmtu => exact absurd hmtu (by decide)
  | reply _ _ _ _ hid => exact absurd hid (by decide)

/-- The MTU size of the request is stored as it is, whatever it is. -/
theorem request_sets_mtu :
    ¬ ∀ (cfg : PeerConfig) (inputs : List PeerInput) (i : ℕ),
      ((inputs.foldl (step cfg) initial).slot i).MtuWithinLimits := by
  intro hclaim
  have hlimits := hclaim oneIncoming [askForSlot 65535] 0
  exact absurd hlimits (by decide)

end RakPeer

end SLikeNet
