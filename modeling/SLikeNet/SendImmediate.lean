import SLikeNet.Packet
import SLikeNet.RemoteSystemLookup

/-! `SendImmediate`: which reliability layers a message of the user is given to, and which of them
takes over its buffer. -/

namespace SLikeNet

/-- The target of a send. An address and a GUID carry the slot in which they were last seen. -/
structure SendIdentifier where
  systemAddress : SystemAddress
  addressIndex : Option ℕ
  rakNetGuid : RakNetGUID
  guidIndex : Option ℕ

structure ImmediateSend where
  data : List UInt8
  numberOfBitsToSend : ℕ
  priority : PacketPriority
  reliability : PacketReliability
  orderingChannel : ℕ
  systemIdentifier : SendIdentifier
  broadcast : Bool
  useCallerDataAllocation : Bool
  currentTime : ℕ
  receipt : UInt32

/-- One call of `Send` of the reliability layer of a slot. -/
structure LayerSend where
  remoteSystemIndex : ℕ
  data : List UInt8
  numberOfBitsToSend : ℕ
  priority : PacketPriority
  reliability : PacketReliability
  orderingChannel : ℕ
  makeDataCopy : Bool
  mtuSize : ℕ
  currentTime : ℕ
  receipt : UInt32
deriving DecidableEq

/-- What the loop over the `sendList` has done. -/
structure SendProgress where
  sends : List LayerSend
  lastReliableSend : ℕ → ℕ
  callerDataAllocationUsed : Bool

namespace RemoteSystems

variable (cfg : PeerConfig)

/-- `GetIndexFromSystemAddress` in the network thread. -/
def getIndexFromSystemAddress (s : RemoteSystems) (systemAddress : SystemAddress)
    (systemIndex : Option ℕ) : Option ℕ :=
  if systemAddress = .unassigned then none
  else
    match systemIndex with
    | some i =>
      if i < cfg.maximumNumberOfPeers ∧ s.addressOf i = systemAddress ∧
          (s.remoteSystemList i).isActive then some i
      else s.getRemoteSystemIndex cfg systemAddress
    | none => s.getRemoteSystemIndex cfg systemAddress

def getSystemIndexFromGuid (s : RemoteSystems) (input : RakNetGUID) (systemIndex : Option ℕ) :
    Option ℕ :=
  if input = .unassigned then none
  else if input = cfg.myGuid then none
  else
    let scan := (List.range cfg.maximumNumberOfPeers).find? fun i =>
      decide ((s.remoteSystemList i).guid = input)
    match systemIndex with
    | some i =>
      if i < cfg.maximumNumberOfPeers ∧ (s.remoteSystemList i).guid = input then some i else scan
    | none => scan

/-- The slot of the system that a send names, `none` for an unknown one. -/
def remoteSystemIndex (s : RemoteSystems) (systemIdentifier : SendIdentifier) : Option ℕ :=
  if systemIdentifier.systemAddress ≠ .unassigned then
    s.getIndexFromSystemAddress cfg systemIdentifier.systemAddress systemIdentifier.addressIndex
  else if systemIdentifier.rakNetGuid ≠ .unassigned then
    s.getSystemIndexFromGuid cfg systemIdentifier.rakNetGuid systemIdentifier.guidIndex
  else none

/-- The systems that the call sends to. -/
def sendList (s : RemoteSystems) (systemIdentifier : SendIdentifier) (broadcast : Bool) : List ℕ :=
  if broadcast = false then
    match s.remoteSystemIndex cfg systemIdentifier with
    | none => []
    | some i =>
      if (s.remoteSystemList i).isActive ∧ (s.remoteSystemList i).connectMode ≠ .disconnectAsap ∧
          (s.remoteSystemList i).connectMode ≠ .disconnectAsapSilently ∧
          (s.remoteSystemList i).connectMode ≠ .disconnectOnNoAck then [i]
      else []
  else
    -- a broadcast does not look at the connect modes
    (List.range cfg.maximumNumberOfPeers).filter fun idx =>
      decide (s.remoteSystemIndex cfg systemIdentifier ≠ some idx) &&
        (s.remoteSystemList idx).isActive && decide (s.addressOf idx ≠ .unassigned)

def layerSend (s : RemoteSystems) (call : ImmediateSend) (makeDataCopy : Bool) (i : ℕ) :
    LayerSend where
  remoteSystemIndex := i
  data := call.data
  numberOfBitsToSend := call.numberOfBitsToSend
  priority := call.priority
  reliability := call.reliability
  orderingChannel := call.orderingChannel
  makeDataCopy := makeDataCopy
  mtuSize := (s.remoteSystemList i).mtuSize
  currentTime := call.currentTime
  receipt := call.receipt

def sendFrom (s : RemoteSystems) (call : ImmediateSend) : List ℕ → SendProgress → SendProgress
  | [], p => p
  | i :: sendList, p =>
    -- only the last system of the list can get the buffer itself
    let useData :=
      call.useCallerDataAllocation && !p.callerDataAllocationUsed && sendList.isEmpty
    s.sendFrom call sendList
      { sends := p.sends ++ [s.layerSend call (!useData) i]
        lastReliableSend :=
          if call.reliability.isReliable then
            Function.update p.lastReliableSend i (call.currentTime / 1000 % 2 ^ 32)
          else p.lastReliableSend
        callerDataAllocationUsed := p.callerDataAllocationUsed || useData }

/-- `SendImmediate`, which returns whether the buffer was taken over. -/
def sendImmediate (s : RemoteSystems) (lastReliableSend : ℕ → ℕ) (call : ImmediateSend) :
    SendProgress :=
  s.sendFrom call (s.sendList cfg call.systemIdentifier call.broadcast)
    ⟨[], lastReliableSend, false⟩

/-- The message goes to the systems that the caller named and to no others, and the last one of
them may have the buffer. -/
structure SendsToNamed (s : RemoteSystems) (lastReliableSend : ℕ → ℕ) (call : ImmediateSend) :
    Prop where
  broadcast : call.broadcast = true → ∀ i,
    (∃ send ∈ (s.sendImmediate cfg lastReliableSend call).sends, send.remoteSystemIndex = i) ↔
      i < cfg.maximumNumberOfPeers ∧ s.Active i ∧
        (s.remoteSystemList i).connectMode = .connected ∧
        s.remoteSystemIndex cfg call.systemIdentifier ≠ some i
  unicast : call.broadcast = false →
    (s.sendImmediate cfg lastReliableSend call).sends.length ≤ 1 ∧
      ∀ send ∈ (s.sendImmediate cfg lastReliableSend call).sends, s.Active send.remoteSystemIndex ∧
        s.remoteSystemIndex cfg call.systemIdentifier = some send.remoteSystemIndex
  once : ((s.sendImmediate cfg lastReliableSend call).sends.map LayerSend.remoteSystemIndex).Nodup
  sameMessage : ∀ send ∈ (s.sendImmediate cfg lastReliableSend call).sends,
    send = s.layerSend call send.makeDataCopy send.remoteSystemIndex
  handedOver : ∀ before send after,
    (s.sendImmediate cfg lastReliableSend call).sends = before ++ send :: after →
      send.makeDataCopy = false →
        call.useCallerDataAllocation = true ∧ after = [] ∧ ∀ copied ∈ before, copied.makeDataCopy
  returned : (s.sendImmediate cfg lastReliableSend call).callerDataAllocationUsed = true ↔
    ∃ send ∈ (s.sendImmediate cfg lastReliableSend call).sends, send.makeDataCopy = false

/-! ### The loop -/

variable {cfg} {s : RemoteSystems}

theorem sendFrom_append (call : ImmediateSend) (front : List ℕ) (last : ℕ) (p : SendProgress)
    (hunused : p.callerDataAllocationUsed = false) :
    (s.sendFrom call (front ++ [last]) p).sends = p.sends ++ front.map (s.layerSend call true) ++
        [s.layerSend call (!call.useCallerDataAllocation) last] ∧
      (s.sendFrom call (front ++ [last]) p).callerDataAllocationUsed =
        call.useCallerDataAllocation := by
  induction front generalizing p with
  | nil => simp [sendFrom, hunused]
  | cons i front ih =>
    have hmore : (front ++ [last]).isEmpty = false := by cases front <;> rfl
    rw [List.cons_append, sendFrom, hmore]
    obtain ⟨hsends, hused⟩ := ih
      { sends := p.sends ++ [s.layerSend call true i]
        lastReliableSend :=
          if call.reliability.isReliable then
            Function.update p.lastReliableSend i (call.currentTime / 1000 % 2 ^ 32)
          else p.lastReliableSend
        callerDataAllocationUsed := false } rfl
    simp only [hunused, Bool.and_false, Bool.or_false, Bool.not_false]
    refine ⟨?_, hused⟩
    rw [hsends, List.map_cons]
    simp

theorem sendImmediate_nil {lastReliableSend : ℕ → ℕ} {call : ImmediateSend}
    (h : s.sendList cfg call.systemIdentifier call.broadcast = []) :
    s.sendImmediate cfg lastReliableSend call = ⟨[], lastReliableSend, false⟩ := by
  rw [sendImmediate, h]
  rfl

theorem sendImmediate_append {lastReliableSend : ℕ → ℕ} {call : ImmediateSend} {front : List ℕ}
    {last : ℕ}
    (h : s.sendList cfg call.systemIdentifier call.broadcast = front ++ [last]) :
    (s.sendImmediate cfg lastReliableSend call).sends = front.map (s.layerSend call true) ++
        [s.layerSend call (!call.useCallerDataAllocation) last] ∧
      (s.sendImmediate cfg lastReliableSend call).callerDataAllocationUsed =
        call.useCallerDataAllocation := by
  rw [sendImmediate, h]
  exact sendFrom_append call front last _ rfl

theorem sendImmediate_indices (lastReliableSend : ℕ → ℕ) (call : ImmediateSend) :
    (s.sendImmediate cfg lastReliableSend call).sends.map LayerSend.remoteSystemIndex =
      s.sendList cfg call.systemIdentifier call.broadcast := by
  rcases List.eq_nil_or_concat' (s.sendList cfg call.systemIdentifier call.broadcast) with
    hnil | ⟨front, last, hfront⟩
  · rw [sendImmediate_nil hnil, hnil]
    rfl
  · rw [(sendImmediate_append hfront).1, hfront, List.map_append, List.map_map]
    congr 1
    exact List.map_id front

theorem mem_sendImmediate {lastReliableSend : ℕ → ℕ} {call : ImmediateSend} {i : ℕ} :
    (∃ send ∈ (s.sendImmediate cfg lastReliableSend call).sends, send.remoteSystemIndex = i) ↔
      i ∈ s.sendList cfg call.systemIdentifier call.broadcast := by
  rw [← sendImmediate_indices lastReliableSend call, List.mem_map]

theorem sendImmediate_sameMessage {lastReliableSend : ℕ → ℕ} {call : ImmediateSend} :
    ∀ send ∈ (s.sendImmediate cfg lastReliableSend call).sends,
      send = s.layerSend call send.makeDataCopy send.remoteSystemIndex := by
  intro send hmem
  rcases List.eq_nil_or_concat' (s.sendList cfg call.systemIdentifier call.broadcast) with
    hnil | ⟨front, last, hfront⟩
  · rw [sendImmediate_nil hnil] at hmem
    exact absurd hmem List.not_mem_nil
  · rw [(sendImmediate_append hfront).1, List.mem_append, List.mem_singleton, List.mem_map] at hmem
    rcases hmem with ⟨i, -, rfl⟩ | rfl
    · rfl
    · rfl

theorem sendImmediate_handedOver {lastReliableSend : ℕ → ℕ} {call : ImmediateSend}
    {before after : List LayerSend} {send : LayerSend}
    (h : (s.sendImmediate cfg lastReliableSend call).sends = before ++ send :: after)
    (hgiven : send.makeDataCopy = false) :
    call.useCallerDataAllocation = true ∧ after = [] ∧ ∀ copied ∈ before, copied.makeDataCopy := by
  rcases List.eq_nil_or_concat' (s.sendList cfg call.systemIdentifier call.broadcast) with
    hnil | ⟨front, last, hfront⟩
  · rw [sendImmediate_nil hnil] at h
    simp at h
  · rw [(sendImmediate_append hfront).1] at h
    have hcopied : ∀ copied ∈ front.map (s.layerSend call true), copied.makeDataCopy = true := by
      intro copied hmem
      obtain ⟨i, -, rfl⟩ := List.mem_map.mp hmem
      rfl
    rcases List.eq_nil_or_concat' after with rfl | ⟨after, final, rfl⟩
    · obtain ⟨hbefore, hsend⟩ := List.append_inj' h rfl
      obtain rfl := (List.cons.inj hsend).1
      refine ⟨?_, rfl, fun copied hmem => hcopied copied (hbefore ▸ hmem)⟩
      simpa [layerSend] using hgiven
    · rw [← List.cons_append, ← List.append_assoc] at h
      obtain ⟨hbefore, -⟩ := List.append_inj' h rfl
      have hmem : send ∈ front.map (s.layerSend call true) := by
        rw [hbefore]
        exact List.mem_append_right _ List.mem_cons_self
      rw [hcopied send hmem] at hgiven
      exact absurd hgiven (by decide)

theorem sendImmediate_returned {lastReliableSend : ℕ → ℕ} {call : ImmediateSend} :
    (s.sendImmediate cfg lastReliableSend call).callerDataAllocationUsed = true ↔
      ∃ send ∈ (s.sendImmediate cfg lastReliableSend call).sends, send.makeDataCopy = false := by
  rcases List.eq_nil_or_concat' (s.sendList cfg call.systemIdentifier call.broadcast) with
    hnil | ⟨front, last, hfront⟩
  · rw [sendImmediate_nil hnil]
    simp
  · obtain ⟨hsends, hused⟩ :=
      @sendImmediate_append cfg s lastReliableSend call front last hfront
    rw [hsends, hused]
    constructor
    · intro hgives
      exact ⟨_, List.mem_append_right _ List.mem_cons_self, by simp [layerSend, hgives]⟩
    · rintro ⟨send, hmem, hgiven⟩
      rw [List.mem_append, List.mem_singleton, List.mem_map] at hmem
      rcases hmem with ⟨i, -, rfl⟩ | rfl
      · exact absurd hgiven (by simp [layerSend])
      · simpa [layerSend] using hgiven

/-! ### The systems -/

theorem mem_sendList_broadcast {systemIdentifier : SendIdentifier} {i : ℕ} :
    i ∈ s.sendList cfg systemIdentifier true ↔ i < cfg.maximumNumberOfPeers ∧
      s.remoteSystemIndex cfg systemIdentifier ≠ some i ∧ s.Active i ∧
        s.addressOf i ≠ .unassigned := by
  rw [sendList, if_neg (by decide), List.mem_filter, List.mem_range, Bool.and_eq_true,
    Bool.and_eq_true, decide_eq_true_eq, decide_eq_true_eq, and_assoc]
  rfl

theorem sendList_unicast (systemIdentifier : SendIdentifier) :
    (s.sendList cfg systemIdentifier false).length ≤ 1 ∧
      ∀ i ∈ s.sendList cfg systemIdentifier false,
        s.Active i ∧ s.remoteSystemIndex cfg systemIdentifier = some i := by
  rw [sendList, if_pos rfl]
  cases hnamed : s.remoteSystemIndex cfg systemIdentifier with
  | none => exact ⟨Nat.zero_le 1, fun i hi => absurd hi List.not_mem_nil⟩
  | some i =>
    dsimp only
    split
    · rename_i htakes
      refine ⟨Nat.le_refl 1, fun j hj => ?_⟩
      obtain rfl := List.mem_singleton.mp hj
      exact ⟨htakes.1, rfl⟩
    · exact ⟨Nat.zero_le 1, fun i hi => absurd hi List.not_mem_nil⟩

theorem nodup_sendList (systemIdentifier : SendIdentifier) (broadcast : Bool) :
    (s.sendList cfg systemIdentifier broadcast).Nodup := by
  cases broadcast with
  | true => exact List.nodup_range.filter _
  | false =>
    have hlength := (@sendList_unicast cfg s systemIdentifier).1
    match hlist : s.sendList cfg systemIdentifier false, hlength with
    | [], _ => exact List.nodup_nil
    | [i], _ => exact List.nodup_singleton i

/-! ### The claim of the documentation -/

/-- A message goes to the systems that the caller named exactly if it is no broadcast, or the
active systems that have an address are the connected ones. -/
theorem sendsToNamed_iff (cfg : PeerConfig) (s : RemoteSystems) (lastReliableSend : ℕ → ℕ)
    (call : ImmediateSend) :
    s.SendsToNamed cfg lastReliableSend call ↔ (call.broadcast = true →
      ∀ i < cfg.maximumNumberOfPeers, s.Active i →
        s.remoteSystemIndex cfg call.systemIdentifier ≠ some i →
          (s.addressOf i ≠ .unassigned ↔ (s.remoteSystemList i).connectMode = .connected)) := by
  constructor
  · intro h hbroadcast i hi hactive hexcluded
    have hiff := h.broadcast hbroadcast i
    rw [mem_sendImmediate, hbroadcast, mem_sendList_broadcast] at hiff
    constructor
    · intro haddress
      exact (hiff.mp ⟨hi, hexcluded, hactive, haddress⟩).2.2.1
    · intro hconnected
      exact (hiff.mpr ⟨hi, hactive, hconnected, hexcluded⟩).2.2.2
  · intro h
    refine
      { broadcast := fun hbroadcast i => ?_
        unicast := fun hunicast => ?_
        once := ?_
        sameMessage := sendImmediate_sameMessage
        handedOver := fun _ _ _ => sendImmediate_handedOver
        returned := sendImmediate_returned }
    · rw [mem_sendImmediate, hbroadcast, mem_sendList_broadcast]
      constructor
      · rintro ⟨hi, hexcluded, hactive, haddress⟩
        exact ⟨hi, hactive, (h hbroadcast i hi hactive hexcluded).mp haddress, hexcluded⟩
      · rintro ⟨hi, hactive, hconnected, hexcluded⟩
        exact ⟨hi, hexcluded, hactive, (h hbroadcast i hi hactive hexcluded).mpr hconnected⟩
    · have hindices := @sendImmediate_indices cfg s lastReliableSend call
      rw [hunicast] at hindices
      obtain ⟨hlength, hlist⟩ := @sendList_unicast cfg s call.systemIdentifier
      rw [← hindices, List.length_map] at hlength
      refine ⟨hlength, fun send hmem => hlist send.remoteSystemIndex ?_⟩
      rw [← hindices]
      exact List.mem_map_of_mem hmem
    · rw [sendImmediate_indices]
      exact nodup_sendList _ _

/-- Two slots: a connected system, and one that has only asked for a connection. -/
def halfOpenTable : RemoteSystems :=
  ((initial.activate 0 .connected 1492 ⟨1⟩ 0).setSystemAddress 0 ⟨1, 1⟩ |>.activate 1
    .unverifiedSender 1492 ⟨2⟩ 0).setSystemAddress 1 ⟨2, 2⟩

def twoPeers : PeerConfig where
  maximumNumberOfPeers := 2
  maximumIncomingConnections := 2
  incomingPassword := []
  limitConnectionFrequencyFromTheSameIP := false
  allowConnectionResponseIPMigration := false
  myGuid := ⟨3⟩
  ipList := []
  toInteger sa := sa.ip.toNat

/-- Everyone is sent the one byte 150. -/
def greeting : ImmediateSend :=
  ⟨[150], 8, .high, .reliableOrdered, 0, ⟨.unassigned, none, .unassigned, none⟩, true, true, 0, 1⟩

theorem unverified_sender_sent : ¬ halfOpenTable.SendsToNamed twoPeers (fun _ => 0) greeting := by
  intro h
  have hsent : ∃ send ∈ (halfOpenTable.sendImmediate twoPeers (fun _ => 0) greeting).sends,
      send.remoteSystemIndex = 1 := by decide
  exact absurd ((h.broadcast rfl 1).mp hsent).2.2.1 (by decide)

end RemoteSystems

end SLikeNet
