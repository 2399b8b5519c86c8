import Mathlib.Data.Finset.Card
import SLikeNet.EstablishedConnection

/-! The limit on incoming connections is tested when a slot is reserved, and the connections it
counts are those whose handshake is complete: handshakes that overlap are not seen. -/

namespace SLikeNet

open RemoteSystems (Inv)

/-- The slots that `GetNumberOfRemoteInitiatedConnections` counts. -/
def Slot.RemoteInitiated (x : Slot) : Prop :=
  x.isActive = true ∧ x.connectMode = .connected ∧ x.weInitiatedTheConnection = false

instance (x : Slot) : Decidable x.RemoteInitiated :=
  inferInstanceAs (Decidable (x.isActive = true ∧ x.connectMode = .connected ∧
    x.weInitiatedTheConnection = false))

namespace RakPeer

variable {cfg : PeerConfig}

/-- The message completes the handshake of a system that connected to us. -/
inductive CompletesIncoming (cfg : PeerConfig) (s : RakPeer) (i : ℕ) : PeerInput → Prop
  | newIncomingConnection (data : List UInt8) (env : MessageEnv) (hactive : s.Active i)
      (htheirs : (s.slot i).weInitiatedTheConnection = false)
      (hmode : (s.slot i).connectMode = .handlingConnectionRequest)
      (hid : data.head? = some MessageID.newIncomingConnection)
      (hlength : data.length > 1 + 4 + 2 + 8 * 2) : CompletesIncoming cfg s i (.message i data env)
  | connectionRequestAccepted (data : List UInt8) (env : MessageEnv) (hactive : s.Active i)
      (htheirs : (s.slot i).weInitiatedTheConnection = false)
      (hnew : (s.slot i).connectMode ≠ .connected)
      (hmode : (s.slot i).connectMode ≠ .unverifiedSender)
      (hallow : allowConnection cfg (s.slot i).connectMode = true)
      (hid : data.head? = some MessageID.connectionRequestAccepted)
      (hlength : data.length > 1 + 4 + 2 + 2 + 8 * 2) :
      CompletesIncoming cfg s i (.message i data env)

theorem CompletesIncoming.eq {s : RakPeer} {i j : ℕ} {input : PeerInput}
    (hi : CompletesIncoming cfg s i input) (hj : CompletesIncoming cfg s j input) : i = j := by
  cases hi <;> cases hj <;> rfl

theorem SlotStep.remoteInitiated {s : RakPeer} {i : ℕ} {input : PeerInput} {x : Slot}
    (hstep : SlotStep cfg s i input x) (hx : x.RemoteInitiated) :
    (s.slot i).RemoteInitiated ∨ CompletesIncoming cfg s i input := by
  obtain ⟨hactive, hmode, htheirs⟩ := hx
  cases hstep with
  | keep => exact Or.inl ⟨hactive, hmode, htheirs⟩
  | pong => exact Or.inl ⟨hactive, hmode, htheirs⟩
  | close => exact absurd hactive Bool.false_ne_true
  | complete data env hlive hhandling hid hlength =>
    exact Or.inr (.newIncomingConnection data env hlive htheirs hhandling hid hlength)
  | accept data env hlive hverified hallow hid hlength =>
    by_cases hconnected : (s.slot i).connectMode = .connected
    · exact Or.inl ⟨hlive, hconnected, htheirs⟩
    · exact Or.inr (.connectionRequestAccepted data env hlive htheirs hconnected hverified hallow
        hid hlength)
  | flag => exact ConnectMode.noConfusion hmode
  | reserve => exact ConnectMode.noConfusion hmode
  | reserveAndRequest => exact ConnectMode.noConfusion hmode
  | request => exact ConnectMode.noConfusion hmode
  | password => exact ConnectMode.noConfusion hmode
  | wrongPassword => exact ConnectMode.noConfusion hmode
  | leave => exact ConnectMode.noConfusion hmode
  | rejected => exact ConnectMode.noConfusion hmode

/-! ### Counting -/

/-- The systems that are counted. -/
def remoteInitiated (s : RakPeer) : Finset ℕ :=
  (s.systems.activeSystemList.filter fun i => decide (s.slot i).RemoteInitiated).toFinset

theorem mem_remoteInitiated {s : RakPeer} (h : Inv cfg s.systems) {i : ℕ} :
    i ∈ s.remoteInitiated ↔ (s.slot i).RemoteInitiated := by
  unfold remoteInitiated
  rw [List.mem_toFinset, List.mem_filter, h.active.mem_iff, decide_eq_true_iff]
  exact and_iff_right_of_imp fun hcounted => hcounted.1

theorem card_remoteInitiated {s : RakPeer} (h : Inv cfg s.systems) :
    s.getNumberOfRemoteInitiatedConnections = s.remoteInitiated.card := by
  have hpredicate : (fun i => (s.remoteSystem i).isActive &&
      decide ((s.remoteSystem i).connectMode = .connected) &&
      !(s.remoteSystem i).weInitiatedTheConnection) =
      fun i => decide (s.slot i).RemoteInitiated := by
    funext i
    refine Bool.eq_iff_iff.mpr (Iff.trans ?_ decide_eq_true_iff.symm)
    simp [Slot.RemoteInitiated, slot, RemoteSystemStruct.slot, and_assoc]
  unfold getNumberOfRemoteInitiatedConnections remoteInitiated
  rw [hpredicate, List.countP_eq_length_filter]
  exact (List.toFinset_card_of_nodup (h.active.nodup.filter _)).symm

theorem allowIncomingConnections_iff {s : RakPeer} :
    s.allowIncomingConnections cfg = true ↔
      s.getNumberOfRemoteInitiatedConnections < cfg.maximumIncomingConnections :=
  decide_eq_true_iff

/-- At the moment a handshake completes, one more connection is allowed. -/
def RoomWhenCompleted (cfg : PeerConfig) (s : RakPeer) (input : PeerInput) : Prop :=
  ∀ i, CompletesIncoming cfg s i input → s.allowIncomingConnections cfg = true

theorem remoteInitiated_step {s : RakPeer} (h : Inv cfg s.systems) {input : PeerInput}
    (hroom : RoomWhenCompleted cfg s input)
    (hcount : s.getNumberOfRemoteInitiatedConnections ≤ cfg.maximumIncomingConnections) :
    (s.step cfg input).getNumberOfRemoteInitiatedConnections ≤ cfg.maximumIncomingConnections := by
  have hstep : ∀ i ∈ (s.step cfg input).remoteInitiated,
      i ∈ s.remoteInitiated ∨ CompletesIncoming cfg s i input := by
    intro i hi
    rw [mem_remoteInitiated (inv_step h input)] at hi
    rw [mem_remoteInitiated h]
    exact (slotStep h i input).remoteInitiated hi
  rw [card_remoteInitiated (inv_step h input)]
  rw [card_remoteInitiated h] at hcount
  by_cases hcompletes : ∃ k, CompletesIncoming cfg s k input
  · obtain ⟨k, hk⟩ := hcompletes
    have hsubset : (s.step cfg input).remoteInitiated ⊆ insert k s.remoteInitiated := by
      intro i hi
      rcases hstep i hi with hold | hnew
      · exact Finset.mem_insert_of_mem hold
      · exact hnew.eq hk ▸ Finset.mem_insert_self i _
    have hlt := allowIncomingConnections_iff.mp (hroom k hk)
    rw [card_remoteInitiated h] at hlt
    calc (s.step cfg input).remoteInitiated.card
        ≤ (insert k s.remoteInitiated).card := Finset.card_le_card hsubset
      _ ≤ s.remoteInitiated.card + 1 := Finset.card_insert_le k _
      _ ≤ cfg.maximumIncomingConnections := hlt
  · have hsubset : (s.step cfg input).remoteInitiated ⊆ s.remoteInitiated := by
      intro i hi
      rcases hstep i hi with hold | hnew
      · exact hold
      · exact absurd ⟨i, hnew⟩ hcompletes
    exact (Finset.card_le_card hsubset).trans hcount

theorem incoming_within_limit (cfg : PeerConfig) (inputs : List PeerInput)
    (hroom : Transition.Along (step cfg) (RoomWhenCompleted cfg) initial inputs) :
    (inputs.foldl (step cfg) initial).getNumberOfRemoteInitiatedConnections ≤
      cfg.maximumIncomingConnections := by
  have hrun := Transition.run_invariant (fun _ (s : RakPeer) => Inv cfg s.systems ∧
    s.getNumberOfRemoteInitiatedConnections ≤ cfg.maximumIncomingConnections)
    ⟨RemoteSystems.initial_inv cfg, Nat.zero_le _⟩ fun pre input post heq h =>
      ⟨inv_step h.1 input, remoteInitiated_step h.1 (hroom pre input post heq) h.2⟩
  exact hrun.2

/-! ### Runs -/

/-- Two slots, and one incoming connection allowed. -/
def oneOfTwoIncoming : PeerConfig := { oneIncoming with maximumNumberOfPeers := 2 }

def thirdAddress : SystemAddress := ⟨3, 3⟩

theorem thirdAddress_assigned : thirdAddress ≠ .unassigned := by decide

def thirdSystem : Sender := ⟨thirdAddress, thirdAddress_assigned⟩

/-- Two systems ask for slots, and then both complete their handshakes. -/
def overlappingHandshakes : List PeerInput :=
  [askForSlot 1492,
    .datagram thirdSystem (openConnectionRequest2Datagram 1492 ⟨6⟩) plainReceive,
    .message 0 (connectionRequestData ⟨5⟩ [1]) plainMessage,
    .message 1 (connectionRequestData ⟨6⟩ [1]) plainMessage,
    .message 0 newIncomingConnectionData plainMessage,
    .message 1 newIncomingConnectionData plainMessage]

theorem otherConnects_within_limit :
    (otherConnects.foldl (step oneIncoming) initial).getNumberOfRemoteInitiatedConnections ≤ 1 := by
  refine incoming_within_limit oneIncoming otherConnects (Transition.along_cons ?_
    (Transition.along_cons ?_ (Transition.along_cons ?_ Transition.along_nil)))
  · exact fun i h => nomatch h
  · exact fun i _ => by decide
  · exact fun i _ => by decide

theorem overlapping_handshakes_exceed_limit :
    ¬ ∀ (cfg : PeerConfig) (inputs : List PeerInput),
      (inputs.foldl (step cfg) initial).getNumberOfRemoteInitiatedConnections ≤
        cfg.maximumIncomingConnections := by
  intro hclaim
  exact absurd (hclaim oneOfTwoIncoming overlappingHandshakes) (by decide)

end RakPeer

end SLikeNet
