import Mathlib.Data.List.GetD
import SLikeNet.Library.Transition
import SLikeNet.ReplicaManager

/-! The packets of `ReplicaManager3`: what a shift of the timestamp changes of them, and what
becomes of a packet that is taken from the queue. -/

namespace SLikeNet

/-! ### Shifted timestamps -/

/-- `Receive` shifts a timestamp in the packet. -/
def Timestamped (data : List UInt8) : Prop :=
  9 ≤ data.length ∧ data.getD 0 0 = MessageID.timestamp

instance (data : List UInt8) : Decidable (Timestamped data) := inferInstanceAs (Decidable (_ ∧ _))

theorem shift_of_timestamped {data : List UInt8} (h : Timestamped data) (differential : UInt64) :
    shiftIncomingTimestamp differential data =
      data.take 1 ++ toBytes 8 (UInt64.ofNat (encodedTimestamp data) - differential).toNat ++
        data.drop 9 := if_pos h

theorem shift_of_not_timestamped {data : List UInt8} (h : ¬Timestamped data)
    (differential : UInt64) : shiftIncomingTimestamp differential data = data := if_neg h

@[simp] theorem length_shift (differential : UInt64) (data : List UInt8) :
    (shiftIncomingTimestamp differential data).length = data.length := by
  by_cases h : Timestamped data
  · have hlength := h.1
    rw [shift_of_timestamped h]
    simp
    omega
  · rw [shift_of_not_timestamped h]

theorem getD_shift (differential : UInt64) (data : List UInt8) {i : ℕ} (hi : i = 0 ∨ 9 ≤ i) :
    (shiftIncomingTimestamp differential data).getD i 0 = data.getD i 0 := by
  by_cases h : Timestamped data
  · have hlength := h.1
    rw [shift_of_timestamped h, List.append_assoc]
    rcases hi with rfl | hi
    · rw [List.getD_append _ _ _ _ (by rw [List.length_take]; omega)]
      cases data with
      | nil => simp at hlength
      | cons b data => rfl
    · rw [List.getD_append_right _ _ _ _ (by rw [List.length_take]; omega),
        List.getD_append_right _ _ _ _ (by rw [List.length_take, length_toBytes]; omega)]
      simp only [List.getD_eq_getElem?_getD, List.getElem?_drop, List.length_take, length_toBytes]
      congr 2
      omega
  · rw [shift_of_not_timestamped h]

@[simp] theorem timestamped_shift (differential : UInt64) (data : List UInt8) :
    Timestamped (shiftIncomingTimestamp differential data) ↔ Timestamped data := by
  rw [Timestamped, Timestamped, length_shift, getD_shift _ _ (Or.inl rfl)]

theorem shift_shift {data : List UInt8} (h : Timestamped data) (first second : UInt64) :
    shiftIncomingTimestamp second (shiftIncomingTimestamp first data) =
      data.take 1 ++ toBytes 8 (UInt64.ofNat (encodedTimestamp data) - first - second).toNat ++
        data.drop 9 := by
  have hlength := h.1
  have hone : (data.take 1).length = 1 := by
    rw [List.length_take]
    omega
  have htime : encodedTimestamp (shiftIncomingTimestamp first data) =
      (UInt64.ofNat (encodedTimestamp data) - first).toNat := by
    rw [encodedTimestamp, shift_of_timestamped h, List.append_assoc, List.drop_left' hone,
      List.take_left' (length_toBytes 8 _), ofBytes_toBytes]
    exact UInt64.toNat_lt _
  have hnine : (data.take 1 ++ toBytes 8 (UInt64.ofNat (encodedTimestamp data) - first).toNat).length
      = 9 := by
    rw [List.length_append, hone, length_toBytes]
  have hfirst : (data.take 1 ++ toBytes 8 (UInt64.ofNat (encodedTimestamp data) - first).toNat ++
      data.drop 9).take 1 = data.take 1 := by
    rw [List.append_assoc, List.take_left' hone]
  rw [shift_of_timestamped ((timestamped_shift first data).mpr h), htime, UInt64.ofNat_toNat,
    shift_of_timestamped h, List.drop_left' hnine, hfirst]

theorem shift_shift_eq_iff {data : List UInt8} (h : Timestamped data) (first second : UInt64) :
    shiftIncomingTimestamp second (shiftIncomingTimestamp first data) =
      shiftIncomingTimestamp first data ↔ second = 0 := by
  rw [shift_shift h, shift_of_timestamped h]
  constructor
  · intro heq
    have hbytes := List.append_cancel_left (List.append_cancel_right heq)
    have htime := congrArg ofBytes hbytes
    rw [ofBytes_toBytes (UInt64.toNat_lt _), ofBytes_toBytes (UInt64.toNat_lt _)] at htime
    have hsub := UInt64.toNat_inj.mp htime
    grind
  · rintro rfl
    rw [UInt64.sub_zero]

/-! ### What kind of packet it is -/

namespace ReplicaPacket

def isDownloadStarted (worldId : UInt8) (packet : ReplicaPacket) : Bool :=
  match packet.onReceive worldId with
  | .onDownloadStarted _ => true
  | _ => false

def isDownloadComplete (worldId : UInt8) (packet : ReplicaPacket) : Bool :=
  match packet.onReceive worldId with
  | .onDownloadComplete _ => true
  | _ => false

@[simp] theorem onReceive_take (worldId : UInt8) (packet : ReplicaPacket) (differential : UInt64) :
    (packet.take differential).onReceive worldId = packet.onReceive worldId := by
  rw [onReceive, onReceive]
  by_cases h : Timestamped packet.data
  · have hstamp := h.2
    have htaken : (shiftIncomingTimestamp differential packet.data).getD 0 0 =
        MessageID.timestamp := by
      rw [getD_shift differential packet.data (Or.inl rfl), hstamp]
    rw [if_pos hstamp, take, if_pos htaken, length_shift,
      getD_shift differential packet.data (Or.inr (Nat.le_refl 9)),
      getD_shift differential packet.data (Or.inr (by omega : 9 ≤ 10))]
    rfl
  · rw [take, shift_of_not_timestamped h]
    rfl

@[simp] theorem isDownloadStarted_take (worldId : UInt8) (packet : ReplicaPacket)
    (differential : UInt64) :
    (packet.take differential).isDownloadStarted worldId = packet.isDownloadStarted worldId := by
  rw [isDownloadStarted, onReceive_take, isDownloadStarted]

@[simp] theorem isDownloadComplete_take (worldId : UInt8) (packet : ReplicaPacket)
    (differential : UInt64) :
    (packet.take differential).isDownloadComplete worldId = packet.isDownloadComplete worldId := by
  rw [isDownloadComplete, onReceive_take, isDownloadComplete]

theorem not_complete_of_started {worldId : UInt8} {packet : ReplicaPacket}
    (h : packet.isDownloadStarted worldId = true) : packet.isDownloadComplete worldId = false := by
  rw [isDownloadStarted] at h
  rw [isDownloadComplete]
  cases hhandler : packet.onReceive worldId with
  | onDownloadStarted offset => rfl
  | _ => simp [hhandler] at h

end ReplicaPacket

namespace ConnectionSettings

variable {settings : ConnectionSettings} {packet : ReplicaPacket} {differential : UInt64}

/-- A packet that neither starts nor ends a download. -/
def Plain (settings : ConnectionSettings) (packet : ReplicaPacket) : Prop :=
  packet.isDownloadStarted settings.worldId = false ∧
    packet.isDownloadComplete settings.worldId = false

theorem plain_take (h : settings.Plain packet) : settings.Plain (packet.take differential) := by
  rw [Plain, ReplicaPacket.isDownloadStarted_take, ReplicaPacket.isDownloadComplete_take]
  exact h

theorem update_isSome_take :
    (settings.update (packet.take differential)).isSome = (settings.update packet).isSome := by
  rw [update, update, ReplicaPacket.onReceive_take]
  cases packet.onReceive settings.worldId with
  | onConstruction offset =>
    cases settings.rejectsConstruction with
    | true => rfl
    | false => rfl
  | onSerialize offset => rfl
  | _ => rfl

theorem update_take_none (h : settings.update packet = none) :
    settings.update (packet.take differential) = none := by
  rw [← Option.not_isSome_iff_eq_none, update_isSome_take, h]
  simp

theorem update_of_started (h : packet.isDownloadStarted settings.worldId = true) :
    settings.update packet = none := by
  rw [ReplicaPacket.isDownloadStarted] at h
  rw [update]
  cases hhandler : packet.onReceive settings.worldId with
  | onDownloadStarted offset => rfl
  | _ => simp [hhandler] at h

theorem update_of_complete (h : packet.isDownloadComplete settings.worldId = true) :
    settings.update packet = none := by
  rw [ReplicaPacket.isDownloadComplete] at h
  rw [update]
  cases hhandler : packet.onReceive settings.worldId with
  | onDownloadComplete offset => rfl
  | _ => simp [hhandler] at h

/-- The objects get the same of two packets with the same handler just when these have the same
bytes. -/
theorem update_eq_iff {packet' : ReplicaPacket} (hsome : (settings.update packet).isSome)
    (hhandler : packet'.onReceive settings.worldId = packet.onReceive settings.worldId) :
    settings.update packet' = settings.update packet ↔ packet'.data = packet.data := by
  rw [update] at hsome
  rw [update, update, hhandler]
  cases hcase : packet.onReceive settings.worldId with
  | onConstruction offset =>
    rw [hcase] at hsome
    cases hreject : settings.rejectsConstruction with
    | true => simp [hreject] at hsome
    | false => simp
  | onSerialize offset =>
    simp only [Option.some.injEq, ReplicaUpdate.serialize.injEq, and_true]
    constructor
    · exact fun h => h.1
    · intro h
      exact ⟨h, by rw [ReplicaPacket.timestamp, ReplicaPacket.timestamp, h]⟩
  | _ => simp [hcase] at hsome

theorem update_take_take {first second : UInt64} (hsome : (settings.update packet).isSome) :
    settings.update ((packet.take first).take second) = settings.update (packet.take first) ↔
      (Timestamped packet.data → second = 0) := by
  rw [update_eq_iff (by rw [update_isSome_take]; exact hsome) (by simp)]
  by_cases h : Timestamped packet.data
  · simp only [h, true_imp_iff]
    exact shift_shift_eq_iff h first second
  · simp only [h, false_imp_iff, iff_true]
    show shiftIncomingTimestamp second (shiftIncomingTimestamp first packet.data) =
      shiftIncomingTimestamp first packet.data
    rw [shift_of_not_timestamped h, shift_of_not_timestamped h]

end ConnectionSettings

/-! ### One round of `Receive` -/

namespace ReplicaConnection

variable {settings : ConnectionSettings} {connection : ReplicaConnection} {packet : ReplicaPacket}

theorem onReceive_plain (h : settings.Plain packet) :
    connection.onReceive settings packet =
      match settings.update packet with
      | none => connection
      | some update => connection.onUpdate packet update := by
  obtain ⟨hstarted, hcomplete⟩ := h
  rw [ReplicaPacket.isDownloadStarted] at hstarted
  rw [ReplicaPacket.isDownloadComplete] at hcomplete
  rw [onReceive, ConnectionSettings.update]
  cases hhandler : packet.onReceive settings.worldId with
  | onConstruction offset =>
    cases hreject : settings.rejectsConstruction with
    | true => simp [onConstruction, hreject]
    | false => simp [onConstruction, hreject]
  | onSerialize offset => rfl
  | onDownloadStarted offset => simp [hhandler] at hstarted
  | onDownloadComplete offset => simp [hhandler] at hcomplete
  | _ => rfl

theorem onReceive_started (h : packet.isDownloadStarted settings.worldId = true) :
    connection.onReceive settings packet = connection.onDownloadStarted settings packet := by
  rw [ReplicaPacket.isDownloadStarted] at h
  rw [onReceive]
  cases hhandler : packet.onReceive settings.worldId with
  | onDownloadStarted offset => rfl
  | _ => simp [hhandler] at h

theorem onReceive_complete (h : packet.isDownloadComplete settings.worldId = true) :
    connection.onReceive settings packet = connection.onDownloadComplete packet := by
  rw [ReplicaPacket.isDownloadComplete] at h
  rw [onReceive]
  cases hhandler : packet.onReceive settings.worldId with
  | onDownloadComplete offset => rfl
  | _ => simp [hhandler] at h

end ReplicaConnection

end SLikeNet
